import PenDrawing.Listing.Cursor
import PenDrawing.Proofs.Listing.Block

/-!
# The entries of a listing

What a cursor comes to, one entry after another, is what a listing consists of.  Every fact about all
entries goes by the same induction, on the places a cursor comes through (`Cursor.entries_induction`):

* from a place in an exported listing on, the entries are the blocks of the text (`blocks_iff`);
* from a place in a bare listing on, they are its pieces that are not blank, numbered without gaps
  (`bare_entries`);
* in either layout the payloads lie one behind another in the text, each up to a `;` or to the end
  (`aligned_entries`).
-/

namespace PenDrawing.Listing

open Payload (terminator)
open Text (Stops)

/-! ## From one entry to the next -/

namespace Cursor

variable {cursor after : Cursor} {entry : Entry}

theorem entries_of_none (h : cursor.next? = none) : cursor.entries = [] := by
  rw [entries]
  split
  · rfl
  · rename_i found
    rw [h] at found
    cases found

/-- The entries of a cursor are the next one and those behind it. -/
theorem entries_of_some (h : cursor.next? = some (entry, after)) :
    cursor.entries = entry :: after.entries := by
  rw [entries]
  split
  · rename_i found
    rw [h] at found
    cases found
  · rename_i found
    rw [h] at found
    obtain ⟨rfl, rfl⟩ := Prod.mk.inj (Option.some.inj found)
    rfl

/-- What holds at the end of a listing, and at a place if it holds at the next one, holds
everywhere. -/
theorem entries_induction {motive : Cursor → List Entry → Prop}
    (atEnd : ∀ cursor : Cursor, cursor.next? = none → motive cursor [])
    (step : ∀ (cursor after : Cursor) (entry : Entry), cursor.next? = some (entry, after) →
      motive after after.entries → motive cursor (entry :: after.entries)) (cursor : Cursor) :
    motive cursor cursor.entries := by
  cases h : cursor.next? with
  | none =>
      rw [entries_of_none h]
      exact atEnd cursor h
  | some found =>
      obtain ⟨entry, after⟩ := found
      rw [entries_of_some h]
      exact step cursor after entry h (entries_induction atEnd step after)
termination_by cursor.rest.length
decreasing_by exact length_next?_lt h

/-- In an exported listing the next entry is the leftmost block. -/
theorem next?_exported {rest : List Char} {ordinal : Nat} :
    next? ⟨.exported, rest, ordinal⟩ = some (entry, after) ↔
      ∃ later, findBlock? rest = some (entry, later) ∧ after = ⟨.exported, later, ordinal⟩ := by
  rw [next?, Option.map_eq_some_iff]
  constructor
  · rintro ⟨⟨found, later⟩, read, same⟩
    obtain ⟨rfl, rfl⟩ := Prod.mk.inj same
    exact ⟨later, read, rfl⟩
  · rintro ⟨later, read, rfl⟩
    exact ⟨(entry, later), read, rfl⟩

/-- In a bare listing the next entry is the next piece, with the next number. -/
theorem next?_bare {rest : List Char} {ordinal : Nat} :
    next? ⟨.bare, rest, ordinal⟩ = some (entry, after) ↔
      ∃ payload later, nextPiece? rest = some (payload, later) ∧
        entry = ⟨.bare ordinal, payload⟩ ∧ after = ⟨.bare, later, ordinal + 1⟩ := by
  rw [next?, Option.map_eq_some_iff]
  constructor
  · rintro ⟨⟨payload, later⟩, read, same⟩
    obtain ⟨rfl, rfl⟩ := Prod.mk.inj same
    exact ⟨payload, later, read, rfl, rfl⟩
  · rintro ⟨payload, later, read, rfl, rfl⟩
    exact ⟨(payload, later), read, rfl⟩

end Cursor

/-- A listing is exported exactly if a header occurs in it. -/
theorem Layout.of_eq_exported_iff {source : List Char} :
    Layout.of source = .exported ↔ Occurs source := by
  rw [Layout.of, ← not_iff_not, ← findBlock?_eq_none_iff]
  cases findBlock? source with
  | none => exact ⟨fun _ => rfl, fun _ => by decide⟩
  | some found => exact ⟨fun h => absurd rfl h, fun h => absurd h (Option.some_ne_none _)⟩

/-! ## Exported listings -/

/-- Blocks from left to right are what a cursor comes to, and only they are. -/
theorem blocks_iff {source : List Char} {ordinal : Nat} {entries : List Entry} :
    Blocks source entries ↔ entries = Cursor.entries ⟨.exported, source, ordinal⟩ := by
  constructor
  · -- what stands in the relation is what is found, block after block
    intro h
    induction h with
    | none absent =>
        rw [Cursor.entries_of_none]
        rw [Cursor.next?, findBlock?_eq_none_iff.mpr absent]
        rfl
    | next leftmost spells greedy clean ends more ih =>
        have here := block?_eq_some_iff.mpr ⟨_, _, _, _, spells, greedy, clean, ends, rfl, rfl⟩
        have found := findBlock?_eq_some_iff.mpr ⟨_, _, rfl, leftmost, here⟩
        rw [Cursor.entries_of_some (Cursor.next?_exported.mpr ⟨_, found, rfl⟩), ih]
  · -- what is found stands in the relation, on the places that the cursor comes to
    rintro rfl
    refine Cursor.entries_induction
      (motive := fun cursor entries => cursor.layout = .exported → Blocks cursor.rest entries)
      ?_ ?_ ⟨.exported, source, ordinal⟩ rfl
    · rintro ⟨layout, rest, ordinal⟩ done rfl
      refine .none (findBlock?_eq_none_iff.mp ?_)
      exact Option.map_eq_none_iff.mp done
    · rintro ⟨layout, rest, ordinal⟩ after entry moved ih rfl
      obtain ⟨later, found, rfl⟩ := Cursor.next?_exported.mp moved
      obtain ⟨skipped, text, rfl, leftmost, here⟩ := findBlock?_eq_some_iff.mp found
      obtain ⟨header, spelled, payload, behind, spells, greedy, clean, ends, rfl, rfl⟩ :=
        block?_eq_some_iff.mp here
      exact .next leftmost spells greedy clean ends (ih rfl)

/-- No payload of a block begins with a blank. -/
theorem stops_of_mem_blocks {source : List Char} {entries : List Entry}
    (h : Blocks source entries) : ∀ entry ∈ entries, Stops Text.isBlank entry.payload := by
  induction h with
  | none absent => exact fun _ h => absurd h List.not_mem_nil
  | next leftmost spells greedy clean ends more ih =>
      intro entry hentry
      rcases List.mem_cons.mp hentry with rfl | later
      · exact greedy
      · exact ih entry later

/-! ## Bare listings -/

/-- The pieces between terminators that are not blank. -/
def pieces (source : List Char) : List (List Char) :=
  (source.splitOn terminator).filter fun payload => !payload.all Text.isBlank

/-- The entries that a bare listing makes of its pieces. -/
def bareEntries (ordinal : Nat) (payloads : List (List Char)) : List Entry :=
  (payloads.zipIdx ordinal).map fun (payload, n) => ⟨.bare n, payload⟩

theorem pieces_nil : pieces [] = [] := rfl

/-- The first piece is kept unless it is blank. -/
theorem pieces_eq (cs : List Char) :
    pieces cs = [piece cs].filter (fun payload => !payload.all Text.isBlank) ++
      pieces (afterPiece cs) := by
  have clean := terminator_not_mem_piece cs
  -- the first cut is at the end of the first piece
  have other : ∀ c ∈ piece cs, (c == terminator) = false :=
    fun c hc => beq_eq_false_iff_ne.mpr fun same => clean (same ▸ hc)
  obtain ⟨behind, cut, ends⟩ := exists_ends cs
  generalize piece cs = payload at *
  generalize afterPiece cs = rest at *
  subst cut
  cases ends with
  | terminated =>
      rw [pieces, List.splitOn_eq_splitOnP,
        List.splitOnP_append_cons_of_forall_mem other terminator (beq_self_eq_true _),
        ← List.singleton_append, List.filter_append]
      rfl
  | atEnd =>
      rw [pieces, List.append_nil, List.splitOn_eq_splitOnP, List.splitOnP_eq_singleton other,
        pieces_nil, List.append_nil]

/-- The next piece that is not blank is the first of all of them. -/
theorem pieces_of_nextPiece? (cs : List Char) :
    match nextPiece? cs with
    | none => pieces cs = []
    | some (payload, rest) => pieces cs = payload :: pieces rest := by
  fun_induction nextPiece? cs with
  | case1 => exact pieces_nil
  | case2 cs _ blank ih =>
      rw [pieces_eq cs, List.filter_cons_of_neg (by rw [blank]; exact Bool.false_ne_true)]
      exact ih
  | case3 cs _ solid =>
      rw [pieces_eq cs, List.filter_cons_of_pos (by simpa using solid)]
      rfl

/-- A cursor comes to the pieces that are not blank, and counts them. -/
theorem bare_entries (source : List Char) (ordinal : Nat) :
    Cursor.entries ⟨.bare, source, ordinal⟩ = bareEntries ordinal (pieces source) := by
  refine Cursor.entries_induction
    (motive := fun cursor entries =>
      cursor.layout = .bare → entries = bareEntries cursor.ordinal (pieces cursor.rest))
    ?_ ?_ ⟨.bare, source, ordinal⟩ rfl
  · rintro ⟨layout, rest, ordinal⟩ done rfl
    have all := pieces_of_nextPiece? rest
    rw [Option.map_eq_none_iff.mp done] at all
    show [] = bareEntries ordinal (pieces rest)
    rw [all]
    rfl
  · rintro ⟨layout, rest, ordinal⟩ after entry moved ih rfl
    obtain ⟨payload, later, found, rfl, rfl⟩ := Cursor.next?_bare.mp moved
    have all := pieces_of_nextPiece? rest
    rw [found] at all
    show _ = bareEntries ordinal (pieces rest)
    rw [ih rfl, all]
    rfl

/-! ## Places of payloads -/

/-- A part of a text, from one place in it up to another. -/
structure Segment where
  start : Nat
  stop : Nat

/-- The text of a segment. -/
def Segment.cut (source : List Char) (segment : Segment) : List Char :=
  (source.take segment.stop).drop segment.start

/-- A segment lies in a text, holds no terminator, and ends where one stands or where the text
ends. -/
structure Segment.Fits (source : List Char) (segment : Segment) : Prop where
  ordered : segment.start ≤ segment.stop
  inside : segment.stop ≤ source.length
  clean : terminator ∉ segment.cut source
  ended : source[segment.stop]? = some terminator ∨ segment.stop = source.length

theorem Ends.suffix {behind rest : List Char} (h : Ends behind rest) :
    ∃ front, behind = front ++ rest := by
  cases h with
  | terminated rest => exact ⟨[terminator], rfl⟩
  | atEnd => exact ⟨[], rfl⟩

/-- A piece is cut out of the text in front of what follows it. -/
theorem exists_ends_of_nextPiece? {cs payload rest : List Char}
    (h : nextPiece? cs = some (payload, rest)) :
    ∃ skipped behind, cs = skipped ++ (payload ++ behind) ∧ terminator ∉ payload ∧
      Ends behind rest := by
  fun_induction nextPiece? cs with
  | case1 => cases h
  | case2 cs _ _ ih =>
      -- a blank piece is skipped with its terminator
      obtain ⟨behind₀, cut₀, ends₀⟩ := exists_ends cs
      obtain ⟨front, rfl⟩ := ends₀.suffix
      obtain ⟨skipped, behind, cut, clean, ends⟩ := ih h
      refine ⟨piece cs ++ (front ++ skipped), behind, ?_, clean, ends⟩
      rw [List.append_assoc, List.append_assoc, ← cut]
      exact cut₀
  | case3 cs _ _ =>
      obtain ⟨rfl, rfl⟩ := Prod.mk.inj (Option.some.inj h)
      obtain ⟨behind, cut, ends⟩ := exists_ends cs
      exact ⟨[], behind, cut, terminator_not_mem_piece cs, ends⟩

/-- One entry is cut out of the text in front of the place after it. -/
theorem exists_ends_of_next? {cursor after : Cursor} {entry : Entry}
    (h : cursor.next? = some (entry, after)) :
    ∃ skipped behind, cursor.rest = skipped ++ (entry.payload ++ behind) ∧
      terminator ∉ entry.payload ∧ Ends behind after.rest := by
  obtain ⟨layout, rest, ordinal⟩ := cursor
  cases layout with
  | exported =>
      obtain ⟨later, found, rfl⟩ := Cursor.next?_exported.mp h
      obtain ⟨skipped, text, rfl, -, here⟩ := findBlock?_eq_some_iff.mp found
      obtain ⟨header, spelled, payload, behind, -, -, clean, ends, rfl, rfl⟩ :=
        block?_eq_some_iff.mp here
      exact ⟨skipped ++ spelled, behind, (List.append_assoc ..).symm, clean, ends⟩
  | bare =>
      obtain ⟨payload, later, found, rfl, rfl⟩ := Cursor.next?_bare.mp h
      exact exists_ends_of_nextPiece? found

/-- Texts lie one behind another in a source from a place on, apart from each other, and each of
them where a segment fits. -/
def Aligned (source : List Char) (place : Nat) (texts : List (List Char)) : Prop :=
  ∃ segments : List Segment, texts = segments.map (Segment.cut source) ∧
    segments.Pairwise (fun s t => s.stop < t.start) ∧
    ∀ s ∈ segments, place ≤ s.start ∧ s.Fits source

theorem aligned_nil (source : List Char) (place : Nat) : Aligned source place [] :=
  ⟨[], rfl, .nil, fun _ h => absurd h List.not_mem_nil⟩

theorem Aligned.cons {source : List Char} {place : Nat} {segment : Segment}
    {texts : List (List Char)} (start : place ≤ segment.start) (fits : segment.Fits source)
    (more : Aligned source (segment.stop + 1) texts) :
    Aligned source place (segment.cut source :: texts) := by
  obtain ⟨segments, rfl, apart, inside⟩ := more
  refine ⟨segment :: segments, rfl, List.pairwise_cons.mpr ⟨?_, apart⟩, ?_⟩
  · intro s hs
    exact (inside s hs).1
  · intro s hs
    rcases List.mem_cons.mp hs with rfl | hs
    · exact ⟨start, fits⟩
    · have beyond := (inside s hs).1
      have ordered := fits.ordered
      exact ⟨by omega, (inside s hs).2⟩

/-- The segment of a payload that stands behind a text. -/
def Segment.behind (front payload : List Char) : Segment :=
  ⟨front.length, front.length + payload.length⟩

/-- Cutting out the segment of a payload gives the payload. -/
theorem Segment.cut_behind (front payload after : List Char) :
    (behind front payload).cut (front ++ (payload ++ after)) = payload := by
  show ((front ++ (payload ++ after)).take (front.length + payload.length)).drop front.length = _
  rw [← List.append_assoc, List.take_left' List.length_append, List.drop_left]

/-- A payload that ends is a segment of the text. -/
theorem Segment.fits_behind (front : List Char) {payload after rest : List Char}
    (clean : terminator ∉ payload) (ends : Ends after rest) :
    (behind front payload).Fits (front ++ (payload ++ after)) := by
  refine ⟨Nat.le_add_right _ _, ?_, ?_, ?_⟩
  · simp only [behind, List.length_append]
    omega
  · rw [cut_behind]
    exact clean
  · show (front ++ (payload ++ after))[front.length + payload.length]? = _ ∨
      front.length + payload.length = List.length _
    rw [← List.append_assoc, ← List.length_append]
    cases ends with
    | terminated rest =>
        left
        rw [List.getElem?_append_right (Nat.le_refl _), Nat.sub_self]
        rfl
    | atEnd =>
        right
        rw [List.append_nil]

/-- A cursor at the end of a text comes to nothing. -/
theorem Cursor.entries_of_rest_eq_nil {cursor : Cursor} (h : cursor.rest = []) :
    cursor.entries = [] := by
  cases moved : cursor.next? with
  | none => exact entries_of_none moved
  | some found =>
      have shorter := length_next?_lt (show cursor.next? = some (found.1, found.2) from moved)
      rw [h] at shorter
      exact absurd shorter (Nat.not_lt_zero _)

/-- The payloads that a cursor comes to lie one behind another in what it has not passed. -/
theorem aligned_entries (cursor : Cursor) :
    ∀ before : List Char,
      Aligned (before ++ cursor.rest) before.length (cursor.entries.map Entry.payload) := by
  refine Cursor.entries_induction
    (motive := fun cursor entries => ∀ before : List Char,
      Aligned (before ++ cursor.rest) before.length (entries.map Entry.payload))
    (fun cursor _ before => aligned_nil _ _) ?_ cursor
  intro cursor after entry moved ih before
  obtain ⟨skipped, behind, cut, clean, ends⟩ := exists_ends_of_next? moved
  have whole : before ++ cursor.rest = before ++ skipped ++ (entry.payload ++ behind) := by
    rw [cut, List.append_assoc]
  have first := Segment.cut_behind (before ++ skipped) entry.payload behind
  have fits := Segment.fits_behind (before ++ skipped) clean ends
  have start : before.length ≤ (Segment.behind (before ++ skipped) entry.payload).start := by
    rw [Segment.behind, List.length_append]
    exact Nat.le_add_right _ _
  suffices more : Aligned (before ++ skipped ++ (entry.payload ++ behind))
      ((Segment.behind (before ++ skipped) entry.payload).stop + 1)
      (after.entries.map Entry.payload) by
    have both := Aligned.cons start fits more
    rw [first] at both
    rw [whole]
    exact both
  cases hrest : behind with
  | nil =>
      rw [hrest] at ends
      -- the payload was the last one
      have last : after.entries = [] := by
        refine Cursor.entries_of_rest_eq_nil ?_
        rw [← ends.drop]
        rfl
      rw [last]
      exact aligned_nil _ _
  | cons c rest =>
      -- what follows the terminator is the text of the next place
      have same : before ++ skipped ++ (entry.payload ++ c :: rest) =
          before ++ skipped ++ entry.payload ++ [c] ++ after.rest := by
        rw [← ends.drop, hrest]
        simp only [List.append_assoc, List.singleton_append, List.drop_one, List.tail_cons]
      have more := ih (before ++ skipped ++ entry.payload ++ [c])
      rw [← same, List.length_append, List.length_append] at more
      exact more

/-! ## All entries -/

/-- Without a header the entries are the pieces, numbered. -/
theorem entries_of_not_occurs {source : List Char} (h : ¬ Occurs source) :
    entries source = bareEntries 0 (pieces source) := by
  have layout : Layout.of source = .bare := by
    cases found : Layout.of source with
    | bare => rfl
    | exported => exact absurd (Layout.of_eq_exported_iff.mp found) h
  rw [entries, Cursor.ofSource, layout]
  exact bare_entries source 0

/-- With a header the entries are the blocks. -/
theorem blocks_iff_of_occurs {source : List Char} (h : Occurs source) {all : List Entry} :
    Blocks source all ↔ all = entries source := by
  rw [entries, Cursor.ofSource, Layout.of_eq_exported_iff.mpr h]
  exact blocks_iff

/-- **Entries are segments.**  Where no header occurs, the entries are the pieces between `;` that
are not blank, numbered from zero without gaps.  Where one occurs, they are the blocks from left to
right, and no payload begins with a blank.  Either way the payloads lie one behind another in the
source, free of `;`, each up to a `;` or to the end. -/
theorem entries_segments (source : List Char) :
    (¬ Occurs source → entries source = bareEntries 0 (pieces source)) ∧
    (Occurs source →
      (∀ all : List Entry, Blocks source all ↔ all = entries source) ∧
      ∀ entry ∈ entries source, Stops Text.isBlank entry.payload) ∧
    Aligned source 0 ((entries source).map Entry.payload) := by
  refine ⟨entries_of_not_occurs, ?_, aligned_entries (.ofSource source) []⟩
  intro occurs
  have blocks : ∀ all : List Entry, Blocks source all ↔ all = entries source :=
    fun _ => blocks_iff_of_occurs occurs
  exact ⟨blocks, stops_of_mem_blocks ((blocks _).mpr rfl)⟩

/-- A bare listing with a blank piece, and an exported one with text in front of its block. -/
theorem entries_segments_both_layouts :
    (¬ Occurs ['a', ';', ' ', ';', 'b'] ∧
      entries ['a', ';', ' ', ';', 'b'] = [⟨.bare 0, ['a']⟩, ⟨.bare 1, ['b']⟩]) ∧
    (Occurs "; DEFINE LABEL 7\n ab;".toList ∧
      Blocks "; DEFINE LABEL 7\n ab;".toList (entries "; DEFINE LABEL 7\n ab;".toList)) := by
  have absent : ¬ Occurs ['a', ';', ' ', ';', 'b'] := findBlock?_eq_none_iff.mp (by decide)
  have occurs : Occurs "; DEFINE LABEL 7\n ab;".toList :=
    not_not.mp (mt findBlock?_eq_none_iff.mpr (by decide))
  refine ⟨⟨absent, ?_⟩, occurs, ?_⟩
  · rw [(entries_segments ['a', ';', ' ', ';', 'b']).1 absent]
    decide
  · exact (((entries_segments "; DEFINE LABEL 7\n ab;".toList).2.1 occurs).1 _).mpr rfl

end PenDrawing.Listing
