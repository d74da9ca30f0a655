import PenDrawing.Listing.Block
import PenDrawing.Proofs.Text.Digit
import PenDrawing.Proofs.Text.Run

/-!
# What a header is

A header is spelled by a text if that text is `DEFINE`, a gap, a keyword, a gap, one to nine digits
and a gap, where a gap is one blank or more (`Header.Spells`).  The readers of `Listing.Block` are
compared with that spelling one by one:

* each reader takes exactly the text that its part may consist of (`afterWord?_eq_some_iff`,
  `afterBlanks?_eq_some_iff`, `keyword?_eq_some_iff`, `digits?_eq_some_iff`);
* together they take exactly a header, its last gap as long as it can be
  (`header?_eq_some_iff`);
* so a text begins with a header just if one is read there (`begins_iff`).
-/

namespace PenDrawing.Listing

open Text (Stops)

/-- One blank or more. -/
structure Gap (cs : List Char) : Prop where
  nonempty : cs ≠ []
  blank : ∀ c ∈ cs, Text.isBlank c = true

/-- The word that a header begins with. -/
def opening : List Char := "DEFINE".toList

/-- The word of a keyword. -/
def Keyword.word : Keyword → List Char
  | .comment => "COMMENT".toList
  | .label => "LABEL".toList

/-- One digit or more, but no more than a header may have. -/
structure Digits (cs : List Char) : Prop where
  nonempty : cs ≠ []
  few : cs.length ≤ digitLimit
  digit : ∀ c ∈ cs, Text.isDigit c = true

/-- The texts that spell a header. -/
inductive Header.Spells (header : Header) : List Char → Prop where
  | intro {first second last : List Char} : Gap first → Gap second → Digits header.digits →
      Gap last →
      Header.Spells header
        (opening ++ (first ++ (header.keyword.word ++ (second ++ (header.digits ++ last)))))

/-- A header is spelled at the beginning of a text. -/
def Begins (text : List Char) : Prop :=
  ∃ (header : Header) (spelled after : List Char), header.Spells spelled ∧ text = spelled ++ after

/-- A header is spelled somewhere in a text. -/
def Occurs (text : List Char) : Prop :=
  ∃ before after : List Char, text = before ++ after ∧ Begins after

/-! ## Gaps, words and digits -/

/-- Digits end where a gap begins. -/
theorem Gap.stops_isDigit {gap : List Char} (h : Gap gap) (rest : List Char) :
    Stops Text.isDigit (gap ++ rest) := by
  obtain ⟨c, gap', rfl⟩ := List.exists_cons_of_ne_nil h.nonempty
  exact Text.stops_cons (Text.isDigit_of_isBlank (h.blank c List.mem_cons_self)) (gap' ++ rest)

/-- A gap ends where digits begin. -/
theorem Digits.stops_isBlank {digits : List Char} (h : Digits digits) (rest : List Char) :
    Stops Text.isBlank (digits ++ rest) := by
  obtain ⟨c, digits', rfl⟩ := List.exists_cons_of_ne_nil h.nonempty
  exact Text.stops_cons (Text.isBlank_of_isDigit (h.digit c List.mem_cons_self)) (digits' ++ rest)

/-- A gap ends where a keyword begins. -/
theorem Keyword.stops_isBlank (keyword : Keyword) (rest : List Char) :
    Stops Text.isBlank (keyword.word ++ rest) := by
  cases keyword with
  | comment => exact Text.stops_cons (by decide) _
  | label => exact Text.stops_cons (by decide) _

/-- A word is taken off exactly if the text begins with it. -/
theorem afterWord?_eq_some_iff {word : String} {cs rest : List Char} :
    afterWord? word cs = some rest ↔ cs = word.toList ++ rest := by
  rw [afterWord?]
  constructor
  · intro h
    by_cases found : word.toList.isPrefixOf cs = true
    · rw [if_pos found] at h
      obtain ⟨tail, rfl⟩ := List.isPrefixOf_iff_prefix.mp found
      rw [List.drop_left] at h
      rw [Option.some.inj h]
    · rw [if_neg found] at h
      cases h
  · rintro rfl
    rw [if_pos (List.isPrefixOf_iff_prefix.mpr (List.prefix_append _ _)), List.drop_left]

/-- A gap is taken off as a whole, and there has to be one. -/
theorem afterBlanks?_eq_some_iff {cs rest : List Char} :
    afterBlanks? cs = some rest ↔
      ∃ gap, Gap gap ∧ cs = gap ++ rest ∧ Stops Text.isBlank rest := by
  constructor
  · intro h
    cases cs with
    | nil => cases h
    | cons c cs =>
        rw [afterBlanks?] at h
        by_cases blank : Text.isBlank c = true
        · rw [if_pos blank] at h
          rw [← Option.some.inj h]
          refine ⟨c :: cs.takeWhile Text.isBlank, ⟨List.cons_ne_nil _ _, ?_⟩, ?_,
            Text.stops_dropWhile _ cs⟩
          · intro d hd
            rcases List.mem_cons.mp hd with rfl | run
            · exact blank
            · exact List.mem_takeWhile_imp run
          · rw [List.cons_append, List.takeWhile_append_dropWhile]
        · rw [if_neg blank] at h
          cases h
  · rintro ⟨gap, hgap, rfl, stop⟩
    obtain ⟨c, run, rfl⟩ := List.exists_cons_of_ne_nil hgap.nonempty
    rw [List.cons_append, afterBlanks?, if_pos (hgap.blank c List.mem_cons_self),
      Text.dropWhile_run (fun d hd => hgap.blank d (List.mem_cons_of_mem c hd)) stop]

/-- A keyword is taken off exactly if the text begins with it. -/
theorem keyword?_eq_some_iff {cs rest : List Char} {keyword : Keyword} :
    keyword? cs = some (keyword, rest) ↔ cs = keyword.word ++ rest := by
  constructor
  · intro h
    rw [keyword?] at h
    split at h
    · rename_i after found
      obtain ⟨rfl, rfl⟩ := Prod.mk.inj (Option.some.inj h)
      exact afterWord?_eq_some_iff.mp found
    · obtain ⟨after, found, pair⟩ := Option.map_eq_some_iff.mp h
      obtain ⟨rfl, rfl⟩ := Prod.mk.inj pair
      exact afterWord?_eq_some_iff.mp found
  · rintro rfl
    rw [keyword?]
    cases keyword with
    | comment =>
        have found : afterWord? "COMMENT" (Keyword.comment.word ++ rest) = some rest :=
          afterWord?_eq_some_iff.mpr rfl
        rw [found]
    | label =>
        have found : afterWord? "LABEL" (Keyword.label.word ++ rest) = some rest :=
          afterWord?_eq_some_iff.mpr rfl
        -- the keywords differ in their first letter
        have other : afterWord? "COMMENT" (Keyword.label.word ++ rest) = none := rfl
        rw [other, found]
        rfl

/-- Digits are taken off as far as they go, and there have to be a few. -/
theorem digits?_eq_some_iff {cs digits rest : List Char} :
    digits? cs = some (digits, rest) ↔
      Digits digits ∧ cs = digits ++ rest ∧ Stops Text.isDigit rest := by
  constructor
  · intro h
    rw [digits?] at h
    by_cases bad : ((cs.takeWhile Text.isDigit).isEmpty ||
        decide ((cs.takeWhile Text.isDigit).length > digitLimit)) = true
    · rw [if_pos bad] at h
      cases h
    · rw [if_neg bad] at h
      obtain ⟨rfl, rfl⟩ := Prod.mk.inj (Option.some.inj h)
      simp only [Bool.or_eq_true, not_or, List.isEmpty_iff, decide_eq_true_eq] at bad
      exact ⟨⟨bad.1, Nat.le_of_not_lt bad.2, fun c hc => List.mem_takeWhile_imp hc⟩,
        List.takeWhile_append_dropWhile.symm, Text.stops_dropWhile _ cs⟩
  · rintro ⟨good, rfl, stop⟩
    have fine : ¬ (digits.isEmpty || decide (digits.length > digitLimit)) = true := by
      simp only [Bool.or_eq_true, not_or, List.isEmpty_iff, decide_eq_true_eq]
      exact ⟨good.nonempty, Nat.not_lt_of_le good.few⟩
    rw [digits?, Text.takeWhile_run good.digit stop, Text.dropWhile_run good.digit stop,
      if_neg fine]

/-! ## Headers -/

/-- The reader of headers is the readers of its parts one after another. -/
theorem header?_eq_some_iff_parts {cs rest : List Char} {header : Header} :
    header? cs = some (header, rest) ↔
      ∃ c₁ c₂ c₃ c₄ c₅, afterWord? "DEFINE" cs = some c₁ ∧ afterBlanks? c₁ = some c₂ ∧
        keyword? c₂ = some (header.keyword, c₃) ∧ afterBlanks? c₃ = some c₄ ∧
        digits? c₄ = some (header.digits, c₅) ∧ afterBlanks? c₅ = some rest := by
  simp only [header?, Option.bind_eq_bind, Option.bind_eq_some_iff, Option.pure_def,
    Option.some.injEq, Prod.mk.injEq, Prod.exists]
  constructor
  · rintro ⟨c₁, word, c₂, first, keyword, c₃, key, c₄, second, digits, c₅, number, c₆, third,
      rfl, rfl⟩
    exact ⟨c₁, c₂, c₃, c₄, c₅, word, first, key, second, number, third⟩
  · rintro ⟨c₁, c₂, c₃, c₄, c₅, word, first, key, second, number, third⟩
    exact ⟨c₁, word, c₂, first, header.keyword, c₃, key, c₄, second, header.digits, c₅, number,
      rest, third, rfl, rfl⟩

/-- A header is read just where it is spelled, and no blank is left behind it. -/
theorem header?_eq_some_iff {cs rest : List Char} {header : Header} :
    header? cs = some (header, rest) ↔
      ∃ spelled, header.Spells spelled ∧ cs = spelled ++ rest ∧ Stops Text.isBlank rest := by
  rw [header?_eq_some_iff_parts]
  constructor
  · rintro ⟨c₁, c₂, c₃, c₄, c₅, word, first, key, second, number, third⟩
    obtain rfl := afterWord?_eq_some_iff.mp word
    obtain ⟨gap₁, hgap₁, rfl, -⟩ := afterBlanks?_eq_some_iff.mp first
    obtain rfl := keyword?_eq_some_iff.mp key
    obtain ⟨gap₂, hgap₂, rfl, -⟩ := afterBlanks?_eq_some_iff.mp second
    obtain ⟨hdigits, rfl, -⟩ := digits?_eq_some_iff.mp number
    obtain ⟨gap₃, hgap₃, rfl, stop⟩ := afterBlanks?_eq_some_iff.mp third
    refine ⟨_, .intro hgap₁ hgap₂ hdigits hgap₃, ?_, stop⟩
    show opening ++ _ = _
    simp only [List.append_assoc]
  · rintro ⟨spelled, spells, rfl, stop⟩
    obtain ⟨hgap₁, hgap₂, hdigits, hgap₃⟩ := spells
    -- each part ends where the next one begins, because their characters are of different classes
    simp only [List.append_assoc]
    exact ⟨_, _, _, _, _, afterWord?_eq_some_iff.mpr rfl,
      afterBlanks?_eq_some_iff.mpr ⟨_, hgap₁, rfl, header.keyword.stops_isBlank _⟩,
      keyword?_eq_some_iff.mpr rfl,
      afterBlanks?_eq_some_iff.mpr ⟨_, hgap₂, rfl, hdigits.stops_isBlank _⟩,
      digits?_eq_some_iff.mpr ⟨hdigits, rfl, hgap₃.stops_isDigit _⟩,
      afterBlanks?_eq_some_iff.mpr ⟨_, hgap₃, rfl, stop⟩⟩

/-- Blanks behind a header may be counted to its last gap. -/
theorem Header.Spells.append {header : Header} {spelled : List Char} (h : header.Spells spelled)
    {blanks : List Char} (blank : ∀ c ∈ blanks, Text.isBlank c = true) :
    header.Spells (spelled ++ blanks) := by
  obtain ⟨hgap₁, hgap₂, hdigits, hgap₃⟩ := h
  simp only [List.append_assoc]
  refine .intro hgap₁ hgap₂ hdigits ⟨?_, ?_⟩
  · exact List.append_ne_nil_of_left_ne_nil hgap₃.nonempty _
  · intro c hc
    rcases List.mem_append.mp hc with front | back
    · exact hgap₃.blank c front
    · exact blank c back

/-- A header that is spelled at the beginning of a text is read there, and its last gap is taken as
long as it can be. -/
theorem header?_of_spells {header : Header} {spelled : List Char} (spells : header.Spells spelled)
    (after : List Char) :
    header? (spelled ++ after) = some (header, after.dropWhile Text.isBlank) := by
  have whole : header.Spells (spelled ++ after.takeWhile Text.isBlank) :=
    spells.append fun c hc => List.mem_takeWhile_imp hc
  refine header?_eq_some_iff.mpr ⟨_, whole, ?_, Text.stops_dropWhile _ after⟩
  rw [List.append_assoc, List.takeWhile_append_dropWhile]

/-- A header is read at the beginning of a text just if it is spelled there. -/
theorem begins_iff {text : List Char} : Begins text ↔ (header? text).isSome = true := by
  constructor
  · rintro ⟨header, spelled, after, spells, rfl⟩
    rw [header?_of_spells spells after]
    rfl
  · intro h
    obtain ⟨⟨header, rest⟩, read⟩ := Option.isSome_iff_exists.mp h
    obtain ⟨spelled, spells, rfl, -⟩ := header?_eq_some_iff.mp read
    exact ⟨header, spelled, rest, spells, rfl⟩

end PenDrawing.Listing
