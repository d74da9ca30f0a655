import PenDrawing.Proofs.Listing.Header

/-!
# What a block is, and where the next one is

A block is a header, a payload that no blank begins and no `;` is in, and the `;` behind it, which
only the end of the text may stand for.  `block?` reads exactly a block at the beginning of a text
(`block?_eq_some_iff`), and `findBlock?` reads the leftmost one (`findBlock?_eq_some_iff`); it finds
none just if no header is spelled anywhere (`findBlock?_eq_none_iff`).
-/

namespace PenDrawing.Listing

open Payload (terminator)
open Text (Stops)

/-- What stands behind a payload: its terminator and all the rest, or nothing. -/
inductive Ends : (behind rest : List Char) → Prop where
  | terminated (rest : List Char) : Ends (terminator :: rest) rest
  | atEnd : Ends [] []

/-- No header begins in the front part of a text. -/
def Leftmost (skipped text : List Char) : Prop :=
  ∀ before after : List Char, skipped = before ++ after → after ≠ [] → ¬ Begins (after ++ text)

/-- The blocks of a text from left to right.  The search for each one begins where the one before
it ended. -/
inductive Blocks : List Char → List Entry → Prop where
  | none {text : List Char} : ¬ Occurs text → Blocks text []
  | next {skipped spelled payload behind rest : List Char} {header : Header}
      {entries : List Entry} :
      Leftmost skipped (spelled ++ (payload ++ behind)) → header.Spells spelled →
      Stops Text.isBlank payload → terminator ∉ payload → Ends behind rest → Blocks rest entries →
      Blocks (skipped ++ (spelled ++ (payload ++ behind))) (⟨header.kind, payload⟩ :: entries)

/-! ## Payloads -/

theorem Ends.stops {behind rest : List Char} (h : Ends behind rest) {p : Char → Bool}
    (hp : p terminator = false) : Stops p behind := by
  cases h with
  | terminated rest => exact Text.stops_cons hp rest
  | atEnd => exact Text.stops_nil

theorem Ends.drop {behind rest : List Char} (h : Ends behind rest) : behind.drop 1 = rest := by
  cases h with
  | terminated rest => rfl
  | atEnd => rfl

/-- There is no terminator in a piece. -/
theorem terminator_not_mem_piece (cs : List Char) : terminator ∉ piece cs := by
  intro h
  rw [piece] at h
  have other := List.mem_takeWhile_imp h
  exact of_decide_eq_true other rfl

/-- A text is its first piece and what ends it. -/
theorem exists_ends (cs : List Char) :
    ∃ behind, cs = piece cs ++ behind ∧ Ends behind (afterPiece cs) := by
  refine ⟨cs.dropWhile (· ≠ terminator), List.takeWhile_append_dropWhile.symm, ?_⟩
  rw [afterPiece]
  have stop := Text.stops_dropWhile (fun c => decide (c ≠ terminator)) cs
  cases behind : cs.dropWhile (· ≠ terminator) with
  | nil => exact .atEnd
  | cons c rest =>
      rw [behind] at stop
      have last : c = terminator := by simpa using stop c rfl
      rw [last]
      exact .terminated rest

theorem ne_of_not_mem {payload : List Char} (clean : terminator ∉ payload) :
    ∀ c ∈ payload, decide (c ≠ terminator) = true :=
  fun _ hc => decide_eq_true fun same => clean (same ▸ hc)

/-- A payload that ends is the piece in front. -/
theorem piece_append {payload behind rest : List Char} (clean : terminator ∉ payload)
    (ends : Ends behind rest) : piece (payload ++ behind) = payload :=
  Text.takeWhile_run (ne_of_not_mem clean) (ends.stops rfl)

theorem afterPiece_append {payload behind rest : List Char} (clean : terminator ∉ payload)
    (ends : Ends behind rest) : afterPiece (payload ++ behind) = rest := by
  rw [afterPiece, Text.dropWhile_run (ne_of_not_mem clean) (ends.stops rfl), ends.drop]

/-- A payload begins with a blank just if the text does that it is cut from. -/
theorem stops_append_ends {payload behind rest : List Char} (ends : Ends behind rest) :
    Stops Text.isBlank (payload ++ behind) ↔ Stops Text.isBlank payload := by
  cases payload with
  | nil => exact ⟨fun _ => Text.stops_nil, fun _ => ends.stops rfl⟩
  | cons c payload =>
      exact ⟨fun h => Text.stops_cons (h c rfl) payload,
        fun h => Text.stops_cons (h c rfl) (payload ++ behind)⟩

/-! ## One block -/

/-- A block is read just where a text begins with one. -/
theorem block?_eq_some_iff {text rest : List Char} {entry : Entry} :
    block? text = some (entry, rest) ↔
      ∃ (header : Header) (spelled payload behind : List Char),
        header.Spells spelled ∧ Stops Text.isBlank payload ∧ terminator ∉ payload ∧
        Ends behind rest ∧ text = spelled ++ (payload ++ behind) ∧
        entry = ⟨header.kind, payload⟩ := by
  constructor
  · intro h
    rw [block?] at h
    split at h
    · cases h
    · rename_i header body read
      obtain ⟨rfl, rfl⟩ := Prod.mk.inj (Option.some.inj h)
      obtain ⟨spelled, spells, rfl, stop⟩ := header?_eq_some_iff.mp read
      obtain ⟨behind, cut, ends⟩ := exists_ends body
      rw [cut] at stop
      exact ⟨header, spelled, piece body, behind, spells, (stops_append_ends ends).mp stop,
        terminator_not_mem_piece body, ends, congrArg (spelled ++ ·) cut, rfl⟩
  · rintro ⟨header, spelled, payload, behind, spells, greedy, clean, ends, rfl, rfl⟩
    have read : header? (spelled ++ (payload ++ behind)) = some (header, payload ++ behind) :=
      header?_eq_some_iff.mpr ⟨spelled, spells, rfl, (stops_append_ends ends).mpr greedy⟩
    rw [block?, read]
    show some (Entry.mk header.kind (piece (payload ++ behind)), afterPiece (payload ++ behind)) = _
    rw [piece_append clean ends, afterPiece_append clean ends]

/-- No block is read just where none begins. -/
theorem block?_eq_none_iff {text : List Char} : block? text = none ↔ ¬ Begins text := by
  rw [begins_iff, block?]
  cases header? text with
  | none => exact ⟨fun _ => Bool.false_ne_true, fun _ => rfl⟩
  | some found => exact ⟨fun h => absurd h (Option.some_ne_none _), fun h => absurd rfl h⟩

/-! ## The leftmost block -/

theorem leftmost_nil (text : List Char) : Leftmost [] text := by
  rintro before after same nonempty
  exact absurd (List.append_eq_nil_iff.mp same.symm).2 nonempty

/-- A block is leftmost behind a text just if none begins at any place of it. -/
theorem leftmost_cons_iff {c : Char} {skipped text : List Char} :
    Leftmost (c :: skipped) text ↔ ¬ Begins (c :: skipped ++ text) ∧ Leftmost skipped text := by
  constructor
  · intro h
    refine ⟨h [] (c :: skipped) rfl (List.cons_ne_nil c skipped), ?_⟩
    rintro before after rfl nonempty
    exact h (c :: before) after rfl nonempty
  · rintro ⟨here, later⟩ before after same nonempty
    cases before with
    | nil =>
        rw [List.nil_append] at same
        rw [← same]
        exact here
    | cons d before => exact later before after (List.cons.inj same).2 nonempty

theorem not_begins_nil : ¬ Begins [] := by
  rw [begins_iff]
  exact Bool.false_ne_true

/-- What is skipped does not change the leftmost block. -/
theorem findBlock?_append {skipped text : List Char} (h : Leftmost skipped text) :
    findBlock? (skipped ++ text) = findBlock? text := by
  induction skipped with
  | nil => rfl
  | cons c skipped ih =>
      obtain ⟨here, later⟩ := leftmost_cons_iff.mp h
      rw [List.cons_append, findBlock?, ← List.cons_append, block?_eq_none_iff.mpr here]
      exact ih later

theorem findBlock?_of_block? {text : List Char} {found : Entry × List Char}
    (h : block? text = some found) : findBlock? text = some found := by
  cases text with
  | nil =>
      rw [block?_eq_none_iff.mpr not_begins_nil] at h
      cases h
  | cons c text => rw [findBlock?, h]

/-- The leftmost block is found, and nothing else. -/
theorem findBlock?_eq_some_iff {cs : List Char} {found : Entry × List Char} :
    findBlock? cs = some found ↔
      ∃ skipped text, cs = skipped ++ text ∧ Leftmost skipped text ∧ block? text = some found := by
  constructor
  · intro h
    induction cs with
    | nil => cases h
    | cons c cs ih =>
        rw [findBlock?] at h
        cases here : block? (c :: cs) with
        | some block =>
            rw [here] at h
            rw [← Option.some.inj h]
            exact ⟨[], c :: cs, rfl, leftmost_nil _, here⟩
        | none =>
            -- nothing begins here, so this character is skipped too
            rw [here] at h
            obtain ⟨skipped, text, rfl, leftmost, read⟩ := ih h
            exact ⟨c :: skipped, text, rfl,
              leftmost_cons_iff.mpr ⟨block?_eq_none_iff.mp here, leftmost⟩, read⟩
  · rintro ⟨skipped, text, rfl, leftmost, read⟩
    rw [findBlock?_append leftmost]
    exact findBlock?_of_block? read

theorem occurs_nil : ¬ Occurs [] := by
  rintro ⟨before, after, same, begins⟩
  rw [(List.append_eq_nil_iff.mp same.symm).2] at begins
  exact not_begins_nil begins

theorem occurs_cons_iff {c : Char} {cs : List Char} :
    Occurs (c :: cs) ↔ Begins (c :: cs) ∨ Occurs cs := by
  constructor
  · rintro ⟨before, after, same, begins⟩
    cases before with
    | nil =>
        rw [List.nil_append] at same
        exact .inl (same ▸ begins)
    | cons d before => exact .inr ⟨before, after, (List.cons.inj same).2, begins⟩
  · rintro (here | ⟨before, after, rfl, begins⟩)
    · exact ⟨[], c :: cs, rfl, here⟩
    · exact ⟨c :: before, after, rfl, begins⟩

/-- No block is found just if no header is spelled anywhere. -/
theorem findBlock?_eq_none_iff {cs : List Char} : findBlock? cs = none ↔ ¬ Occurs cs := by
  induction cs with
  | nil => exact ⟨fun _ => occurs_nil, fun _ => rfl⟩
  | cons c cs ih =>
      rw [findBlock?, occurs_cons_iff, not_or, ← ih, ← block?_eq_none_iff]
      cases block? (c :: cs) with
      | none => exact ⟨fun h => ⟨rfl, h⟩, fun h => h.2⟩
      | some found => exact ⟨fun h => absurd h (Option.some_ne_none _),
          fun h => absurd h.1 (Option.some_ne_none _)⟩

end PenDrawing.Listing
