import PenDrawing.Proofs.Text.Run
import PenDrawing.Text.Blank
import Mathlib.Tactic.Common

/-!
# Trimming and wrapping

Cutting blanks off the ends of a text and taking all wrapping out of it do not get in each other's
way: they may be done in either order (`trimBlank_filter`).  A text without blanks stays as it is,
and blanks put in front of a text or behind it do not matter (`trimBlank_append`,
`trimBlank_append_blanks`).  No other character is ever cut off (`count_trimBlank`).
-/

namespace PenDrawing.Text

/-! ## At the left end -/

/-- Taking out the wrapping and cutting blanks off the left end commute. -/
theorem trimLeft_filter (cs : List Char) :
    trimLeft (cs.filter (!isWrap ·)) = (trimLeft cs).filter (!isWrap ·) := by
  induction cs with
  | nil => rfl
  | cons c cs ih =>
      by_cases wrap : isWrap c = true
      · have kept : (c :: cs).filter (!isWrap ·) = cs.filter (!isWrap ·) :=
          List.filter_cons_of_neg (by rw [wrap]; exact Bool.false_ne_true)
        rw [kept, ih]
        show _ = ((c :: cs).dropWhile isBlank).filter _
        rw [List.dropWhile_cons_of_pos (isBlank_of_isWrap wrap)]
        rfl
      · have kept : (c :: cs).filter (!isWrap ·) = c :: cs.filter (!isWrap ·) :=
          List.filter_cons_of_pos (by simpa using wrap)
        rw [kept]
        by_cases blank : isBlank c = true
        · show (c :: _).dropWhile isBlank = ((c :: cs).dropWhile isBlank).filter _
          rw [List.dropWhile_cons_of_pos blank, List.dropWhile_cons_of_pos blank]
          exact ih
        · show (c :: _).dropWhile isBlank = ((c :: cs).dropWhile isBlank).filter _
          rw [List.dropWhile_cons_of_neg blank, List.dropWhile_cons_of_neg blank, kept]

/-- Blanks in front of a text do not matter. -/
theorem trimLeft_append {blanks : List Char} (h : ∀ c ∈ blanks, isBlank c = true)
    (cs : List Char) : trimLeft (blanks ++ cs) = trimLeft cs :=
  List.dropWhile_append_of_pos h

/-- Blanks are all that is cut off. -/
theorem count_trimLeft {c : Char} (h : isBlank c = false) (cs : List Char) :
    (trimLeft cs).count c = cs.count c := by
  have blank : (cs.takeWhile isBlank).count c = 0 := by
    rw [List.count_eq_zero]
    intro hc
    rw [List.mem_takeWhile_imp hc] at h
    cases h
  have parts : cs.takeWhile isBlank ++ trimLeft cs = cs := List.takeWhile_append_dropWhile
  rw [← parts, List.count_append, blank, Nat.zero_add, parts]

/-- A text that begins with no blank stays as it is. -/
theorem trimLeft_eq_self {cs : List Char} (h : Stops isBlank cs) : trimLeft cs = cs := by
  show ([] ++ cs).dropWhile isBlank = cs
  exact dropWhile_run (fun _ hc => absurd hc List.not_mem_nil) h

/-! ## At both ends -/

theorem trimRight_filter (cs : List Char) :
    trimRight (cs.filter (!isWrap ·)) = (trimRight cs).filter (!isWrap ·) := by
  show (trimLeft (cs.filter _).reverse).reverse = ((trimLeft cs.reverse).reverse).filter _
  rw [← List.filter_reverse, trimLeft_filter, List.filter_reverse]

/-- Taking out the wrapping and cutting off blanks commute. -/
theorem trimBlank_filter (cs : List Char) :
    trimBlank (cs.filter (!isWrap ·)) = (trimBlank cs).filter (!isWrap ·) := by
  show trimRight (trimLeft (cs.filter _)) = _
  rw [trimLeft_filter, trimRight_filter]
  rfl

/-- Blanks in front are trimmed away. -/
theorem trimBlank_append {blanks : List Char} (h : ∀ c ∈ blanks, isBlank c = true)
    (cs : List Char) : trimBlank (blanks ++ cs) = trimBlank cs := by
  show trimRight (trimLeft (blanks ++ cs)) = _
  rw [trimLeft_append h]
  rfl

/-- Blanks behind a text do not matter. -/
theorem trimBlank_append_blanks (cs : List Char) {blanks : List Char}
    (h : ∀ c ∈ blanks, isBlank c = true) : trimBlank (cs ++ blanks) = trimBlank cs := by
  show trimRight (trimLeft (cs ++ blanks)) = trimRight (trimLeft cs)
  rw [trimLeft, List.dropWhile_append, ← trimLeft, ← trimLeft]
  by_cases none : (trimLeft cs).isEmpty = true
  · -- nothing but blanks on both sides
    rw [if_pos none, List.isEmpty_iff.mp none, ← List.append_nil blanks, trimLeft_append h]
    rfl
  · rw [if_neg none]
    show (trimLeft (trimLeft cs ++ blanks).reverse).reverse = _
    rw [List.reverse_append, trimLeft_append fun c hc => h c (List.mem_reverse.mp hc)]
    rfl

/-- Trimming takes nothing but blanks away. -/
theorem count_trimBlank {c : Char} (h : isBlank c = false) (cs : List Char) :
    (trimBlank cs).count c = cs.count c := by
  show (trimLeft (trimLeft cs).reverse).reverse.count c = cs.count c
  rw [List.count_reverse, count_trimLeft h, List.count_reverse, count_trimLeft h]

/-- A text without blanks stays as it is. -/
theorem trimBlank_eq_self {cs : List Char} (h : ∀ c ∈ cs, isBlank c = false) :
    trimBlank cs = cs := by
  show (trimLeft (trimLeft cs).reverse).reverse = cs
  rw [trimLeft_eq_self fun c hc => h c (List.mem_of_mem_head? hc), trimLeft_eq_self,
    List.reverse_reverse]
  intro c hc
  exact h c (List.mem_reverse.mp (List.mem_of_mem_head? hc))

/-- No blank is left at the right end. -/
theorem isBlank_getLast?_trimBlank (cs : List Char) :
    ∀ c ∈ (trimBlank cs).getLast?, isBlank c = false := by
  intro c hc
  -- the right end is the left end of the text backwards
  have last : ((trimLeft cs).reverse.dropWhile isBlank).head? = some c := by
    rw [← List.getLast?_reverse]
    exact hc
  exact stops_dropWhile isBlank (trimLeft cs).reverse c last

/-- What is no blank is not taken out as wrapping. -/
theorem isWrap_of_not_isBlank {c : Char} (h : isBlank c = false) : isWrap c = false := by
  by_contra wrap
  rw [isBlank_of_isWrap (Bool.not_eq_false _ ▸ wrap)] at h
  exact Bool.noConfusion h

/-- A text without blanks has no wrapping. -/
theorem filter_eq_self_of_not_isBlank {cs : List Char} (h : ∀ c ∈ cs, isBlank c = false) :
    cs.filter (!isWrap ·) = cs := by
  rw [List.filter_eq_self]
  intro c hc
  rw [isWrap_of_not_isBlank (h c hc)]
  rfl

end PenDrawing.Text
