import PenDrawing.Proofs.Listing.Bare
import PenDrawing.Proofs.Listing.Exported

/-!
# Listings hold the drawings that were written into them

A walk through a listing gives the drawings of its entries and then nothing more
(`Walk.yields_entries`).  Entries of a bare listing are the pieces that were cut there, and entries
of an exported one are its blocks, so what was written in either layout is read back, in its order
and each drawing for itself (`yields_of_written`).
-/

namespace PenDrawing.Listing

/-- What a walk gives, one result after another, until it has nothing more to give. -/
inductive Walk.Yields : Walk → List (Except DecodeError Path) → Prop where
  | done {walk : Walk} : walk.next? = none → Yields walk []
  | next {walk after : Walk} {result : Except DecodeError Path}
      {results : List (Except DecodeError Path)} :
      walk.next? = some (result, after) → Yields after results → Yields walk (result :: results)

/-- A walk gives the drawings of all entries from its place on. -/
theorem Walk.yields_entries (cursor : Cursor) :
    ∀ current : Option Kind, Yields ⟨cursor, current⟩ (cursor.entries.map Entry.decode) := by
  refine Cursor.entries_induction
    (motive := fun cursor entries =>
      ∀ current : Option Kind, Yields ⟨cursor, current⟩ (entries.map Entry.decode)) ?_ ?_ cursor
  · intro cursor done current
    exact .done (Option.map_eq_none_iff.mpr done)
  · intro cursor after entry moved ih current
    refine .next ?_ (ih (some entry.kind))
    rw [Walk.next?, moved]
    rfl

/-! ## Bare listings -/

/-- Bare entries are read as their pieces are. -/
theorem decode_bareEntries (ordinal : Nat) (payloads : List (List Char)) :
    (bareEntries ordinal payloads).map Entry.decode = payloads.map Payload.decode := by
  rw [bareEntries, List.map_map]
  conv => rhs; rw [← List.zipIdx_map_fst ordinal payloads, List.map_map]
  rfl

/-- Bare entries are numbered from zero. -/
theorem kind_bareEntries (payloads : List (List Char)) :
    (bareEntries 0 payloads).map Entry.kind = (List.range payloads.length).map Kind.bare := by
  rw [bareEntries, List.map_map, List.range_eq_range', ← List.zipIdx_map_snd 0 payloads,
    List.map_map]
  rfl

/-! ## Exported listings -/

/-- Where there is a block, a header occurs. -/
theorem Blocks.occurs {source : List Char} {entry : Entry} {entries : List Entry}
    (h : Blocks source (entry :: entries)) : Occurs source := by
  cases h with
  | next leftmost spells greedy clean ends more => exact ⟨_, _, rfl, _, _, _, spells, rfl⟩

/-- The entries of an exported listing are the drawings that were written into it. -/
theorem exists_entries_exportedSource {compress : List UInt8 → List UInt8}
    (sound : Zlib.Compresses compress) {drawings : List ExportedDrawing} (nonempty : drawings ≠ [])
    (fine : ∀ drawing ∈ drawings, drawing.Fine) :
    ∃ source, exportedSource compress drawings = .ok source ∧
      (entries source).map Entry.decode = drawings.map (fun d => .ok d.path) ∧
      (entries source).map Entry.kind = drawings.map ExportedDrawing.kind := by
  obtain ⟨source, written, read⟩ := exists_exportedSource sound drawings fine
  obtain ⟨blocks, hblocks, paths, kinds⟩ := read [] (by decide)
  have occurs : Occurs source := by
    cases blocks with
    | nil => exact absurd (List.map_eq_nil_iff.mp paths.symm) nonempty
    | cons entry later => exact hblocks.occurs
  have all := (blocks_iff_of_occurs occurs).mp hblocks
  rw [all] at paths kinds
  exact ⟨source, written, paths, kinds⟩

/-! ## Both layouts -/

/-- **Listing round trip.**  A bare listing of drawings gives just their paths, numbered from zero;
an exported listing of at least one drawing, behind any text without the word that opens a header,
gives just their paths, attached to what they were written for. -/
theorem yields_of_written (compress : List UInt8 → List UInt8) (sound : Zlib.Compresses compress) :
    (∀ drawings : List BareDrawing, (∀ drawing ∈ drawings, drawing.Fine) →
      ∃ source, bareSource compress drawings = .ok source ∧
        (Walk.ofSource source).Yields (drawings.map fun d => .ok d.path) ∧
        (entries source).map Entry.kind = (List.range drawings.length).map Kind.bare) ∧
    (∀ (listing : List Char) (drawings : List ExportedDrawing), Unopened listing →
      drawings ≠ [] → (∀ drawing ∈ drawings, drawing.Fine) →
      ∃ source, exportedSource compress drawings = .ok source ∧
        (Walk.ofSource (listing ++ source)).Yields (drawings.map fun d => .ok d.path) ∧
        (entries (listing ++ source)).map Entry.kind = drawings.map ExportedDrawing.kind) := by
  constructor
  · intro drawings fine
    obtain ⟨source, written, settled, read⟩ := exists_bareSource sound drawings fine
    have paths : (pieces source).map Payload.decode = drawings.map fun d => .ok d.path :=
      read [] fun _ h => absurd h List.not_mem_nil
    -- no piece is lost or made up, so the numbers are those of the drawings
    have count : (pieces source).length = drawings.length := by
      rw [← List.length_map Payload.decode, paths, List.length_map]
    have all := entries_of_not_occurs (not_occurs_of_settled (settled 0))
    refine ⟨source, written, ?_, ?_⟩
    · have given := Walk.yields_entries (.ofSource source) none
      rw [show (Cursor.ofSource source).entries = entries source from rfl, all, decode_bareEntries,
        paths] at given
      exact given
    · rw [all, kind_bareEntries, count]
  · intro listing drawings unopened nonempty fine
    obtain ⟨source, written, read⟩ := exists_exportedSource sound drawings fine
    obtain ⟨blocks, hblocks, paths, kinds⟩ := read listing unopened
    -- one header is enough to make the listing an exported one
    have occurs : Occurs (listing ++ source) := by
      cases blocks with
      | nil => exact absurd (List.map_eq_nil_iff.mp paths.symm) nonempty
      | cons entry later => exact hblocks.occurs
    have all := ((blocks_iff_of_occurs occurs).mp hblocks).symm
    refine ⟨source, written, ?_, ?_⟩
    · have given := Walk.yields_entries (.ofSource (listing ++ source)) none
      rw [show (Cursor.ofSource (listing ++ source)).entries = entries (listing ++ source) from rfl,
        all, paths] at given
      exact given
    · rw [all, kinds]

/-- Two drawings one after another, the first in lines of eight characters, and two in a listing
behind a `;`, attached to a label and to a comment of one number. -/
theorem yields_of_written_store :
    (∃ source, bareSource Zlib.store
        [⟨⟨[⟨3, 4⟩]⟩, some 8, ['\n']⟩, ⟨⟨[⟨5, 6⟩, .penUp]⟩, none, []⟩] = .ok source ∧
      (Walk.ofSource source).Yields [.ok ⟨[⟨3, 4⟩]⟩, .ok ⟨[⟨5, 6⟩, .penUp]⟩] ∧
      (entries source).map Entry.kind = [.bare 0, .bare 1]) ∧
    (∃ source, exportedSource Zlib.store
        [⟨.label, 7, ⟨[⟨3, 4⟩]⟩, fun _ => [' '], ['D']⟩,
          ⟨.comment, 7, ⟨[⟨5, 6⟩, .penUp]⟩, fun _ => [], [';']⟩] = .ok source ∧
      (Walk.ofSource ([';'] ++ source)).Yields [.ok ⟨[⟨3, 4⟩]⟩, .ok ⟨[⟨5, 6⟩, .penUp]⟩] ∧
      (entries ([';'] ++ source)).map Entry.kind = [.label 7, .comment 7]) := by
  obtain ⟨bare, exported⟩ := yields_of_written Zlib.store Zlib.compresses_store
  constructor
  · refine bare [⟨⟨[⟨3, 4⟩]⟩, some 8, ['\n']⟩, ⟨⟨[⟨5, 6⟩, .penUp]⟩, none, []⟩] ?_
    intro drawing mem
    simp only [List.mem_cons, List.not_mem_nil, or_false] at mem
    rcases mem with rfl | rfl
    · exact ⟨by decide, by decide, List.all_eq_true.mp rfl⟩
    · exact ⟨by decide, by decide, List.all_eq_true.mp rfl⟩
  · refine exported [';'] [⟨.label, 7, ⟨[⟨3, 4⟩]⟩, fun _ => [' '], ['D']⟩,
      ⟨.comment, 7, ⟨[⟨5, 6⟩, .penUp]⟩, fun _ => [], [';']⟩] (by decide) (List.cons_ne_nil _ _) ?_
    intro drawing mem
    simp only [List.mem_cons, List.not_mem_nil, or_false] at mem
    rcases mem with rfl | rfl
    · refine ⟨by decide, by decide, ?_, by decide⟩
      intro place c blank
      rw [List.mem_singleton.mp blank]
      rfl
    · exact ⟨by decide, by decide, fun _ _ none => absurd none List.not_mem_nil, by decide⟩

end PenDrawing.Listing
