import PenDrawing.Proofs.Listing.Headers
import PenDrawing.Proofs.Listing.Segments

/-!
# An exported listing is read piece by piece

No header reaches over a `;`, and no payload does.  So the blocks of a listing are those of the part
in front of a `;` and those of the part behind it (`Blocks.append`), and in the end those of its
pieces (`blocks_splitOn`).  A piece makes one entry, of its first header and all that follows it; the
other headers of the piece are in the payload.

So every header has an entry of its own just if a `;` stands between any two of them
(`entries_headers`), and one that follows a payload without a `;` is lost (`lost_header`).
-/

namespace PenDrawing.Listing

open Payload (terminator)

/-! ## Pieces -/

/-- What holds for a text without terminators, and for one with such a text and a terminator in
front, holds for every text. -/
theorem piece_induction {motive : List Char → Prop}
    (last : ∀ piece, terminator ∉ piece → motive piece)
    (next : ∀ piece rest, terminator ∉ piece → motive rest → motive (piece ++ terminator :: rest))
    (text : List Char) : motive text := by
  refine Text.run_induction (p := (· ≠ terminator)) (motive := motive) ?_ ?_ text
  · intro piece inside
    exact last piece fun mem => of_decide_eq_true (inside terminator mem) rfl
  · intro piece c rest inside cut later
    obtain rfl : c = terminator := not_not.mp (of_decide_eq_false cut)
    exact next piece rest (fun mem => of_decide_eq_true (inside terminator mem) rfl) later

theorem splitOn_of_clean {text : List Char} (clean : terminator ∉ text) :
    text.splitOn terminator = [text] := by
  rw [List.splitOn_eq_splitOnP]
  refine List.splitOnP_eq_singleton fun c hc => ?_
  exact beq_eq_false_iff_ne.mpr fun same => clean (same ▸ hc)

/-- A terminator cuts a text in two. -/
theorem splitOn_append (front back : List Char) :
    (front ++ terminator :: back).splitOn terminator =
      front.splitOn terminator ++ back.splitOn terminator := by
  rw [List.splitOn_eq_splitOnP, List.splitOn_eq_splitOnP, List.splitOn_eq_splitOnP,
    List.splitOnP_append_cons (p := (· == terminator)) front back (beq_self_eq_true terminator)]

/-- The headers of a text are those of its pieces. -/
theorem headers_splitOn (text : List Char) :
    headers text = (text.splitOn terminator).flatMap headers := by
  induction text using piece_induction with
  | last piece clean => rw [splitOn_of_clean clean, List.flatMap_singleton]
  | next piece rest clean ih =>
      rw [headers_append, splitOn_append, splitOn_of_clean clean, ih, List.flatMap_append,
        List.flatMap_singleton]

/-! ## Blocks of pieces -/

/-- The entry that a piece makes: what its first header says, and all that follows that header. -/
def entryOf? (piece : List Char) : Option Entry := (findBlock? piece).map Prod.fst

/-- A piece without headers makes no entry, and every other one an entry of its first header. -/
theorem kind_entryOf? (text : List Char) :
    (entryOf? text).map Entry.kind = (headers text).head?.map Header.kind := by
  induction text with
  | nil => rfl
  | cons c cs ih =>
      rw [entryOf?, findBlock?, headers, block?, beginning?]
      cases header? (c :: cs) with
      | none => exact ih
      | some found => rfl

/-- In a text without a terminator there is one block at most. -/
theorem blocks_of_clean {piece : List Char} (clean : terminator ∉ piece) :
    Blocks piece (entryOf? piece).toList := by
  cases found : findBlock? piece with
  | none =>
      rw [entryOf?, found]
      exact .none (findBlock?_eq_none_iff.mp found)
  | some block =>
      obtain ⟨entry, rest⟩ := block
      obtain ⟨skipped, text, rfl, leftmost, here⟩ := findBlock?_eq_some_iff.mp found
      obtain ⟨header, spelled, payload, behind, spells, greedy, free, ends, rfl, rfl⟩ :=
        block?_eq_some_iff.mp here
      rw [entryOf?, found]
      cases ends with
      | terminated rest => simp at clean
      | atEnd => exact .next leftmost spells greedy free .atEnd (.none occurs_nil)

theorem Blocks.eq_nil {entries : List Entry} (h : Blocks [] entries) : entries = [] := by
  generalize empty : ([] : List Char) = text at h
  cases h with
  | none absent => rfl
  | next leftmost spells greedy clean ends more =>
      obtain ⟨rest, rfl⟩ := exists_of_spells spells
      simp at empty

/-- The blocks of a text are those in front of a terminator and those behind it. -/
theorem Blocks.append {front back : List Char} {first second : List Entry}
    (before : Blocks front first) (behind : Blocks back second) :
    Blocks (front ++ terminator :: back) (first ++ second) := by
  induction before with
  | @none text absent =>
      rw [List.nil_append]
      cases behind with
      | none absent' =>
          refine .none ?_
          rw [occurs_append, not_or]
          exact ⟨absent, absent'⟩
      | @next skipped spelled payload behind rest header entries leftmost spells greedy clean
          ends more =>
          have whole : text ++ terminator :: (skipped ++ (spelled ++ (payload ++ behind))) =
              (text ++ terminator :: skipped) ++ (spelled ++ (payload ++ behind)) := by
            simp only [List.append_assoc, List.cons_append]
          rw [whole]
          exact .next (leftmost_append absent leftmost) spells greedy clean ends more
  | @next skipped spelled payload behind' rest header entries leftmost spells greedy clean ends
      more ih =>
      simp only [List.append_assoc, List.cons_append]
      cases ends with
      | terminated =>
          exact .next (leftmost_congr spells spells leftmost) spells greedy clean
            (.terminated _) ih
      | atEnd =>
          -- the terminator ends the last payload
          rw [more.eq_nil]
          exact .next (leftmost_congr spells spells leftmost) spells greedy clean
            (.terminated _) behind

theorem filterMap_entryOf?_singleton (piece : List Char) :
    [piece].filterMap entryOf? = (entryOf? piece).toList := by
  rw [List.filterMap_cons]
  cases entryOf? piece with
  | none => rfl
  | some entry => rfl

/-- Each piece with a header is a block from its first header on. -/
theorem blocks_splitOn (text : List Char) :
    Blocks text ((text.splitOn terminator).filterMap entryOf?) := by
  induction text using piece_induction with
  | last piece clean =>
      rw [splitOn_of_clean clean, filterMap_entryOf?_singleton]
      exact blocks_of_clean clean
  | next piece rest clean ih =>
      rw [splitOn_append, splitOn_of_clean clean, List.filterMap_append,
        filterMap_entryOf?_singleton]
      exact (blocks_of_clean clean).append ih

/-! ## Headers that are lost -/

theorem length_heads_le {α : Type} (lists : List (List α)) :
    (lists.filterMap List.head?).length ≤ lists.flatten.length := by
  induction lists with
  | nil => exact Nat.le_refl _
  | cons list lists ih =>
      rw [List.flatten_cons, List.length_append]
      cases list with
      | nil =>
          rw [List.filterMap_cons_none rfl, List.length_nil, Nat.zero_add]
          exact ih
      | cons a rest =>
          rw [List.filterMap_cons_some (f := List.head?) rfl, List.length_cons, List.length_cons]
          omega

/-- Lists have as many heads as elements just if none of them has a second element. -/
theorem length_heads_eq_iff {α : Type} (lists : List (List α)) :
    (lists.filterMap List.head?).length = lists.flatten.length ↔
      ∀ list ∈ lists, list.length ≤ 1 := by
  induction lists with
  | nil => exact ⟨fun _ _ h => absurd h List.not_mem_nil, fun _ => rfl⟩
  | cons list lists ih =>
      have least := length_heads_le lists
      rw [List.flatten_cons, List.length_append, List.forall_mem_cons, ← ih]
      cases list with
      | nil =>
          rw [List.filterMap_cons_none rfl, List.length_nil]
          omega
      | cons a rest =>
          rw [List.filterMap_cons_some (f := List.head?) rfl, List.length_cons, List.length_cons]
          omega

/-- Where no list has a second element, the heads are all elements. -/
theorem heads_eq_flatten {α : Type} {lists : List (List α)}
    (h : ∀ list ∈ lists, list.length ≤ 1) : lists.filterMap List.head? = lists.flatten := by
  induction lists with
  | nil => rfl
  | cons list lists ih =>
      obtain ⟨few, rest⟩ := List.forall_mem_cons.mp h
      rw [List.flatten_cons, ← ih rest]
      match list, few with
      | [], _ => rfl
      | [a], _ => rfl

/-- The entries of pieces are of their first headers. -/
theorem kind_filterMap_entryOf? (pieces : List (List Char)) :
    (pieces.filterMap entryOf?).map Entry.kind =
      ((pieces.map headers).filterMap List.head?).map Header.kind := by
  rw [List.map_filterMap, List.filterMap_map, List.map_filterMap]
  exact congrArg (pieces.filterMap ·) (funext kind_entryOf?)

/-- **Which headers have entries.**  The entries of an exported listing are those of its pieces, one
for each piece with a header: of its first header, and of all that follows it.  So all headers, from
the first to the last, have entries of their own just if no piece has two of them, that is, if a
`;` stands between any two headers. -/
theorem entries_headers {source : List Char} (occurs : Occurs source) :
    entries source = (source.splitOn terminator).filterMap entryOf? ∧
    (∀ piece ∈ source.splitOn terminator,
      (entryOf? piece).map Entry.kind = (headers piece).head?.map Header.kind) ∧
    headers source = (source.splitOn terminator).flatMap headers ∧
    ((entries source).map Entry.kind = (headers source).map Header.kind ↔
      ∀ piece ∈ source.splitOn terminator, (headers piece).length ≤ 1) := by
  have all : entries source = (source.splitOn terminator).filterMap entryOf? :=
    ((blocks_iff_of_occurs occurs).mp (blocks_splitOn source)).symm
  refine ⟨all, fun piece _ => kind_entryOf? piece, headers_splitOn source, ?_⟩
  have few := List.forall_mem_map (f := headers) (l := source.splitOn terminator)
    (P := fun list => list.length ≤ 1)
  rw [all, headers_splitOn, kind_filterMap_entryOf?, List.flatMap_def, ← few]
  constructor
  · intro same
    -- as many entries as headers
    have count := congrArg List.length same
    rw [List.length_map, List.length_map] at count
    exact (length_heads_eq_iff _).mp count
  · intro single
    rw [heads_eq_flatten single]

/-- A `;` between two headers, and a header behind it in the same piece. -/
theorem entries_headers_label :
    let source := "DEFINE COMMENT 1
ab;
DEFINE LABEL 2
cd
DEFINE LABEL 3
ef".toList
    Occurs source ∧
      entries source =
        [⟨.comment 1, "ab".toList⟩, ⟨.label 2, "cd
DEFINE LABEL 3
ef".toList⟩] := by
  intro source
  have occurs : Occurs source := not_not.mp (mt headers_eq_nil_iff.mpr (by decide))
  refine ⟨occurs, ?_⟩
  rw [(entries_headers occurs).1]
  decide

/-- A header behind a payload that has lost its `;` has no entry. -/
theorem lost_header :
    let source := "DEFINE COMMENT 1
ab
DEFINE LABEL 2
cd;".toList
    Occurs source ∧ (headers source).map Header.kind = [.comment 1, .label 2] ∧
      (entries source).map Entry.kind = [.comment 1] := by
  intro source
  have occurs : Occurs source := not_not.mp (mt headers_eq_nil_iff.mpr (by decide))
  have all : entries source = (source.splitOn terminator).filterMap entryOf? :=
    ((blocks_iff_of_occurs occurs).mp (blocks_splitOn source)).symm
  refine ⟨occurs, by decide, ?_⟩
  rw [all]
  decide

end PenDrawing.Listing
