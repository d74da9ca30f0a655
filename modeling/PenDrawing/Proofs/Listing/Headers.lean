import PenDrawing.Proofs.Listing.Block

/-!
# All headers of a text

A header holds no `;`, and no `D` but the one that it begins with.  So whether a header begins at
some place is decided in front of the next `;`, and in front of the next header
(`beginning?_append_cons`).  What follows:

* the headers of a text are those of the part in front of a `;` and those of the part behind it
  (`headers_append`, `occurs_append`);
* what is in front of a header may be looked at without what is behind it (`leftmost_congr`).
-/

namespace PenDrawing.Listing

open Payload (terminator)
open Text (Stops)

/-! ## Characters that are in no header -/

/-- A character that stands in no header, unless it begins one. -/
structure Foreign (c : Char) : Prop where
  blank : Text.isBlank c = false
  digit : Text.isDigit c = false
  opens : c ∉ opening.tail
  word : ∀ keyword : Keyword, c ∉ keyword.word

theorem foreign_terminator : Foreign terminator where
  blank := by decide
  digit := by decide
  opens := by decide
  word := by
    rintro (_ | _)
    · decide
    · decide

/-- The letter that begins a header does not stand in it again. -/
theorem foreign_initial : Foreign 'D' where
  blank := by decide
  digit := by decide
  opens := by decide
  word := by
    rintro (_ | _)
    · decide
    · decide

/-- A foreign character stands in no header, unless it begins one. -/
theorem not_mem_tail_of_spells {c : Char} (foreign : Foreign c) {header : Header}
    {spelled : List Char} (spells : header.Spells spelled) : c ∉ spelled.tail := by
  obtain ⟨hgap₁, hgap₂, hdigits, hgap₃⟩ := spells
  have outside : ∀ {gap : List Char}, Gap gap → c ∉ gap := by
    intro gap hgap h
    have blank := hgap.blank c h
    rw [foreign.blank] at blank
    cases blank
  have other : c ∉ header.digits := by
    intro h
    have digit := hdigits.digit c h
    rw [foreign.digit] at digit
    cases digit
  show c ∉ opening.tail ++ _
  simp only [List.mem_append, not_or]
  exact ⟨foreign.opens, outside hgap₁, foreign.word _, outside hgap₂, other, outside hgap₃⟩

/-- A header that begins in front of such a character ends in front of it. -/
theorem isPrefix_append_cons {c : Char} (foreign : Foreign c) {header : Header}
    {spelled : List Char} (spells : header.Spells spelled) {front back : List Char}
    (inside : front ≠ []) : spelled <+: front ++ c :: back ↔ spelled <+: front := by
  refine ⟨fun h => ?_, fun h => h.trans (List.prefix_append front _)⟩
  rcases List.prefix_or_prefix_of_prefix h (List.prefix_append front (c :: back)) with
    shorter | ⟨more, rfl⟩
  · exact shorter
  · obtain ⟨d, front, rfl⟩ := List.exists_cons_of_ne_nil inside
    cases more with
    | nil => simp only [List.append_nil, List.prefix_refl]
    | cons e more =>
        -- the character would stand in the header
        rw [List.prefix_append_right_inj, List.cons_prefix_cons] at h
        refine absurd ?_ (not_mem_tail_of_spells foreign spells)
        rw [h.1]
        exact List.mem_append_right front List.mem_cons_self

/-! ## The header at a place -/

/-- The header that a text begins with. -/
def beginning? (text : List Char) : Option Header := (header? text).map Prod.fst

/-- A header begins a text exactly if what spells it does. -/
theorem beginning?_eq_some_iff {text : List Char} {header : Header} :
    beginning? text = some header ↔ ∃ spelled, header.Spells spelled ∧ spelled <+: text := by
  rw [beginning?, Option.map_eq_some_iff]
  constructor
  · rintro ⟨⟨header, rest⟩, read, rfl⟩
    obtain ⟨spelled, spells, rfl, -⟩ := header?_eq_some_iff.mp read
    exact ⟨spelled, spells, List.prefix_append spelled rest⟩
  · rintro ⟨spelled, spells, after, rfl⟩
    exact ⟨(header, after.dropWhile Text.isBlank), header?_of_spells spells after, rfl⟩

theorem begins_iff_beginning? {text : List Char} : Begins text ↔ beginning? text ≠ none := by
  rw [begins_iff, beginning?, Option.isSome_iff_ne_none, ne_eq, ne_eq, Option.map_eq_none_iff]

/-- Which header begins at a place is decided in front of every character that is in no header. -/
theorem beginning?_append_cons {c : Char} (foreign : Foreign c) {front : List Char}
    (inside : front ≠ []) (back : List Char) :
    beginning? (front ++ c :: back) = beginning? front := by
  refine Option.ext fun header => ?_
  rw [beginning?_eq_some_iff, beginning?_eq_some_iff]
  exact exists_congr fun spelled =>
    and_congr_right fun spells => isPrefix_append_cons foreign spells inside

/-- No header reaches over a terminator. -/
theorem beginning?_append_terminator (front back : List Char) :
    beginning? (front ++ terminator :: back) = beginning? front := by
  cases front with
  | nil => rfl
  | cons c front => exact beginning?_append_cons foreign_terminator (List.cons_ne_nil c front) back

/-! ## All headers -/

/-- The headers of a text, from the first to the last. -/
def headers : List Char → List Header
  | [] => []
  | c :: cs => (beginning? (c :: cs)).toList ++ headers cs

/-- The headers of a text are those in front of a terminator and those behind it. -/
theorem headers_append (front back : List Char) :
    headers (front ++ terminator :: back) = headers front ++ headers back := by
  induction front with
  | nil => rfl
  | cons c front ih =>
      have first := beginning?_append_terminator (c :: front) back
      rw [List.cons_append] at first
      rw [List.cons_append, headers, headers, first, ih, List.append_assoc]

theorem headers_eq_nil_iff {text : List Char} : headers text = [] ↔ ¬ Occurs text := by
  induction text with
  | nil => exact ⟨fun _ => occurs_nil, fun _ => rfl⟩
  | cons c cs ih =>
      rw [headers, List.append_eq_nil_iff, ih, occurs_cons_iff, not_or, begins_iff_beginning?,
        not_not]
      refine and_congr_left fun _ => ?_
      cases beginning? (c :: cs) with
      | none => exact ⟨fun _ => rfl, fun _ => rfl⟩
      | some header => exact ⟨fun h => absurd h (List.cons_ne_nil _ _), fun h => by cases h⟩

/-- A header occurs in front of a terminator or behind it. -/
theorem occurs_append (front back : List Char) :
    Occurs (front ++ terminator :: back) ↔ Occurs front ∨ Occurs back := by
  rw [← not_iff_not, not_or, ← headers_eq_nil_iff, ← headers_eq_nil_iff, ← headers_eq_nil_iff,
    headers_append, List.append_eq_nil_iff]

/-! ## In front of a header -/

theorem exists_of_spells {header : Header} {spelled : List Char} (spells : header.Spells spelled) :
    ∃ rest, spelled = 'D' :: rest := by
  obtain ⟨_, _, _, _⟩ := spells
  exact ⟨_, rfl⟩

/-- What is behind a header does not matter to whether it is the leftmost one. -/
theorem leftmost_congr {skipped behind behind' spelled spelled' : List Char}
    {header header' : Header} (spells : header.Spells spelled) (spells' : header'.Spells spelled')
    (h : Leftmost skipped (spelled ++ behind)) : Leftmost skipped (spelled' ++ behind') := by
  obtain ⟨rest, rfl⟩ := exists_of_spells spells
  obtain ⟨rest', rfl⟩ := exists_of_spells spells'
  intro before after same nonempty begins
  refine h before after same nonempty ?_
  rw [begins_iff_beginning?, List.cons_append, beginning?_append_cons foreign_initial nonempty]
    at begins ⊢
  exact begins

/-- Where no header is in front of a terminator, the leftmost one is the one behind it. -/
theorem leftmost_append {front skipped text : List Char} (absent : ¬ Occurs front)
    (h : Leftmost skipped text) : Leftmost (front ++ terminator :: skipped) text := by
  induction front with
  | nil =>
      refine leftmost_cons_iff.mpr ⟨?_, h⟩
      rw [begins_iff_beginning?, not_not]
      rfl
  | cons c front ih =>
      rw [occurs_cons_iff, not_or] at absent
      rw [List.cons_append, leftmost_cons_iff]
      refine ⟨?_, ih absent.2⟩
      have whole : c :: (front ++ terminator :: skipped) ++ text =
          (c :: front) ++ terminator :: (skipped ++ text) := by
        simp only [List.cons_append, List.append_assoc]
      rw [begins_iff_beginning?] at absent ⊢
      rw [whole, beginning?_append_terminator]
      exact absent.1

end PenDrawing.Listing
