import PenDrawing.Proofs.Listing.Pieces
import PenDrawing.Proofs.Listing.RoundTrip

/-!
# A payload may be replaced

A text without a `;` is put in the place of one payload of a listing.  In an exported listing it is
the payload of the same header, whatever it is, and the blocks in front of it and behind it are what
they were (`Blocks.replace`).  In a bare listing it is the piece in the same place, as long as it is
not blank and makes no header (`exchanges_of_pieces`).  So no more than the one entry changes, and
not even of that what it is attached to (`entries_replace`).
-/

namespace PenDrawing.Listing

open Payload (terminator)

/-! ## Exported listings -/

theorem append_cons_ne_nil {α : Type} (front : List α) (a : α) (back : List α) :
    front ++ a :: back ≠ [] :=
  List.append_ne_nil_of_right_ne_nil front (List.cons_ne_nil a back)

theorem Blocks.occurs_of_ne_nil {source : List Char} {entries : List Entry}
    (h : Blocks source entries) (nonempty : entries ≠ []) : Occurs source := by
  obtain ⟨entry, later, rfl⟩ := List.exists_cons_of_ne_nil nonempty
  exact h.occurs

/-- Where one of the blocks of a text has its payload, any text without a terminator may stand. -/
theorem Blocks.replace {source : List Char} {all : List Entry} (h : Blocks source all)
    {front back : List Entry} {unit : Entry} (cut : all = front ++ unit :: back) :
    ∃ before behind rest, source = before ++ (unit.payload ++ behind) ∧ Ends behind rest ∧
      ∀ text, terminator ∉ text →
        Blocks (before ++ (text ++ behind)) (front ++ ⟨unit.kind, Text.trimLeft text⟩ :: back) := by
  induction h generalizing front with
  | none absent => exact absurd cut.symm (append_cons_ne_nil front unit back)
  | @next skipped spelled payload behind rest header entries leftmost spells greedy clean ends
      more ih =>
      cases front with
      | nil =>
          obtain ⟨rfl, rfl⟩ := List.cons.inj cut
          refine ⟨skipped ++ spelled, behind, rest, (List.append_assoc ..).symm, ends, ?_⟩
          intro text free
          -- the blanks that the text begins with belong to the header
          have split : text = text.takeWhile Text.isBlank ++ Text.trimLeft text :=
            List.takeWhile_append_dropWhile.symm
          have longer : header.Spells (spelled ++ text.takeWhile Text.isBlank) :=
            spells.append fun c hc => List.mem_takeWhile_imp hc
          have whole : skipped ++ spelled ++ (text ++ behind) =
              skipped ++ ((spelled ++ text.takeWhile Text.isBlank) ++
                (Text.trimLeft text ++ behind)) := by
            conv => lhs; rw [split]
            simp only [List.append_assoc]
          rw [whole]
          refine .next (leftmost_congr spells longer leftmost) longer
            (Text.stops_dropWhile _ text) ?_ ends more
          exact fun h => free ((List.dropWhile_sublist _).mem h)
      | cons first front =>
          obtain ⟨rfl, later⟩ := List.cons.inj cut
          obtain ⟨before, behind', rest', place, ends', replaced⟩ := ih later
          cases ends with
          | terminated =>
              refine ⟨skipped ++ (spelled ++ (payload ++ terminator :: before)), behind', rest',
                ?_, ends', ?_⟩
              · simp only [place, List.append_assoc, List.cons_append]
              · intro text free
                simp only [List.append_assoc, List.cons_append]
                exact .next (leftmost_congr spells spells leftmost) spells greedy clean
                  (.terminated _) (replaced text free)
          | atEnd =>
              -- no block follows a payload that is not terminated
              rw [more.eq_nil] at later
              exact absurd later.symm (append_cons_ne_nil front unit back)

/-! ## Bare listings -/

/-- A piece stands at some place in a text, and others may stand there instead of it.  A header that
occurs then is one of the text around it or one of its own. -/
def Exchanges (source : List Char) (front : List (List Char)) (payload : List Char)
    (back : List (List Char)) : Prop :=
  ∃ before behind rest, source = before ++ (payload ++ behind) ∧ Ends behind rest ∧
    ∀ text, terminator ∉ text →
      (text.all Text.isBlank = false →
        pieces (before ++ (text ++ behind)) = front ++ text :: back) ∧
      (Occurs (before ++ (text ++ behind)) → Occurs source ∨ Occurs text)

theorem exchanges_first {payload behind rest : List Char} (ends : Ends behind rest) :
    Exchanges (payload ++ behind) [] payload (pieces rest) := by
  refine ⟨[], behind, rest, rfl, ends, fun text free => ⟨pieces_of_solid free ends, ?_⟩⟩
  cases ends with
  | terminated rest =>
      rw [List.nil_append, occurs_append, occurs_append]
      exact fun h => h.elim .inr fun later => .inl (.inr later)
  | atEnd =>
      rw [List.nil_append, List.append_nil]
      exact .inr

/-- A piece may be exchanged behind another one as well. -/
theorem Exchanges.behind {rest piece payload : List Char} {kept front back : List (List Char)}
    (h : Exchanges rest front payload back)
    (keeps : ∀ later, pieces (piece ++ terminator :: later) = kept ++ pieces later) :
    Exchanges (piece ++ terminator :: rest) (kept ++ front) payload back := by
  obtain ⟨before, behind, rest', rfl, ends, exchanged⟩ := h
  refine ⟨piece ++ terminator :: before, behind, rest', ?_, ends, ?_⟩
  · rw [List.append_assoc, List.cons_append]
  · intro text free
    obtain ⟨others, headers⟩ := exchanged text free
    rw [List.append_assoc, List.cons_append, keeps, occurs_append, occurs_append]
    constructor
    · intro solid
      rw [others solid, List.append_assoc]
    · rintro (first | later)
      · exact .inl (.inl first)
      · exact (headers later).imp_left .inr

/-- Each piece of a text that is not blank may be exchanged. -/
theorem exchanges_of_pieces (source : List Char) {front back : List (List Char)}
    {payload : List Char} (cut : pieces source = front ++ payload :: back) :
    Exchanges source front payload back := by
  induction source using piece_induction generalizing front with
  | last piece clean =>
      by_cases blank : piece.all Text.isBlank = true
      · rw [pieces_of_blank (List.all_eq_true.mp blank)] at cut
        exact absurd cut.symm (append_cons_ne_nil front payload back)
      · have only := pieces_of_solid clean .atEnd (Bool.eq_false_iff.mpr blank)
        rw [List.append_nil, cut] at only
        cases front with
        | nil =>
            obtain ⟨rfl, rfl⟩ := List.cons.inj only
            have whole : Exchanges (payload ++ []) [] payload (pieces []) := exchanges_first .atEnd
            rw [List.append_nil] at whole
            exact whole
        | cons first front =>
            exact absurd (List.cons.inj only).2 (append_cons_ne_nil front payload back)
  | next piece rest clean ih =>
      by_cases blank : piece.all Text.isBlank = true
      · have skips : ∀ later, pieces (piece ++ terminator :: later) = [] ++ pieces later :=
          fun later => pieces_skip (List.all_eq_true.mp blank) (.terminated later)
        rw [skips] at cut
        exact (ih cut).behind skips
      · have keeps : ∀ later, pieces (piece ++ terminator :: later) = [piece] ++ pieces later :=
          fun later => pieces_of_solid clean (.terminated later) (Bool.eq_false_iff.mpr blank)
        rw [keeps] at cut
        cases front with
        | nil =>
            obtain ⟨rfl, rfl⟩ := List.cons.inj cut
            exact exchanges_first (.terminated rest)
        | cons first front =>
            obtain ⟨rfl, later⟩ := List.cons.inj cut
            exact (ih later).behind keeps

theorem bareEntries_cons (ordinal : Nat) (payload : List Char) (payloads : List (List Char)) :
    bareEntries ordinal (payload :: payloads) =
      ⟨.bare ordinal, payload⟩ :: bareEntries (ordinal + 1) payloads := rfl

/-- The entries of a bare listing are numbered on behind others. -/
theorem bareEntries_append (ordinal : Nat) (front back : List (List Char)) :
    bareEntries ordinal (front ++ back) =
      bareEntries ordinal front ++ bareEntries (ordinal + front.length) back := by
  rw [bareEntries, List.zipIdx_append, List.map_append]
  rfl

theorem payload_bareEntries (ordinal : Nat) (payloads : List (List Char)) :
    (bareEntries ordinal payloads).map Entry.payload = payloads := by
  rw [bareEntries, List.map_map]
  exact List.zipIdx_map_fst ordinal payloads

/-- Another piece in the place of one makes an entry with the same number. -/
theorem bareEntries_replace {payloads : List (List Char)} {front back : List Entry} {unit : Entry}
    (h : bareEntries 0 payloads = front ++ unit :: back) :
    payloads = front.map Entry.payload ++ unit.payload :: back.map Entry.payload ∧
      ∀ text, bareEntries 0 (front.map Entry.payload ++ text :: back.map Entry.payload) =
        front ++ ⟨unit.kind, text⟩ :: back := by
  have same : payloads = front.map Entry.payload ++ unit.payload :: back.map Entry.payload := by
    rw [← payload_bareEntries 0 payloads, h, List.map_append, List.map_cons]
  refine ⟨same, fun text => ?_⟩
  rw [same, bareEntries_append, bareEntries_cons] at h
  have count : (bareEntries 0 (front.map Entry.payload)).length = front.length := by
    rw [bareEntries, List.length_map, List.length_zipIdx, List.length_map]
  obtain ⟨first, later⟩ := List.append_inj h count
  obtain ⟨here, behind⟩ := List.cons.inj later
  rw [bareEntries_append, bareEntries_cons, first, behind, ← here]

/-! ## Both layouts -/

/-- **A payload affects its own entry only.**  Every entry of a listing has its payload at some
place, up to a `;` or to the end.  In an exported listing any text without a `;` may be put there,
and in a bare one any that is not blank and in which the opening word of a header does not stand
either.  All other entries stay what they are, and this one is attached to the same and is read as
the text that was put there. -/
theorem entries_replace {source : List Char} {front back : List Entry} {unit : Entry}
    (cut : entries source = front ++ unit :: back) :
    ∃ before behind rest, source = before ++ (unit.payload ++ behind) ∧ Ends behind rest ∧
      (Occurs source → ∀ text, terminator ∉ text →
        entries (before ++ (text ++ behind)) = front ++ ⟨unit.kind, Text.trimLeft text⟩ :: back ∧
          Payload.decode (Text.trimLeft text) = Payload.decode text) ∧
      (¬ Occurs source → ∀ text, terminator ∉ text → Unopened text →
        text.all Text.isBlank = false →
          entries (before ++ (text ++ behind)) = front ++ ⟨unit.kind, text⟩ :: back) := by
  by_cases occurs : Occurs source
  · have blocks := (blocks_iff_of_occurs occurs).mpr rfl
    obtain ⟨before, behind, rest, place, ends, replaced⟩ := blocks.replace cut
    refine ⟨before, behind, rest, place, ends, ?_, fun absent => absurd occurs absent⟩
    intro _ text free
    have blocks' := replaced text free
    have occurs' := blocks'.occurs_of_ne_nil (append_cons_ne_nil front _ back)
    exact ⟨((blocks_iff_of_occurs occurs').mp blocks').symm, Payload.decode_trimLeft text⟩
  · rw [entries_of_not_occurs occurs] at cut
    obtain ⟨payloads, numbered⟩ := bareEntries_replace cut
    obtain ⟨before, behind, rest, place, ends, replaced⟩ := exchanges_of_pieces source payloads
    refine ⟨before, behind, rest, place, ends, fun h => absurd h occurs, ?_⟩
    intro _ text free unopened solid
    obtain ⟨pieces', headers'⟩ := replaced text free
    have absent : ¬ Occurs (before ++ (text ++ behind)) := fun h =>
      (headers' h).elim occurs (not_occurs_of_unopened unopened)
    rw [entries_of_not_occurs absent, pieces' solid, numbered]

/-- In an exported listing the first payload is taken away, and in a bare one the last piece becomes
another one. -/
theorem entries_replace_first_last :
    (Occurs "DEFINE LABEL 1 ab; DEFINE LABEL 2 cd;".toList ∧
      ∃ before behind, "DEFINE LABEL 1 ab; DEFINE LABEL 2 cd;".toList =
          before ++ ("ab".toList ++ behind) ∧
        entries (before ++ ([] ++ behind)) = [⟨.label 1, []⟩, ⟨.label 2, "cd".toList⟩]) ∧
    (¬ Occurs " ;ab;;cd".toList ∧
      ∃ before behind, " ;ab;;cd".toList = before ++ ("cd".toList ++ behind) ∧
        entries (before ++ ("x y".toList ++ behind)) =
          [⟨.bare 0, "ab".toList⟩, ⟨.bare 1, "x y".toList⟩]) := by
  constructor
  · have occurs : Occurs "DEFINE LABEL 1 ab; DEFINE LABEL 2 cd;".toList :=
      not_not.mp (mt headers_eq_nil_iff.mpr (by decide))
    have all : entries "DEFINE LABEL 1 ab; DEFINE LABEL 2 cd;".toList =
        [] ++ ⟨.label 1, "ab".toList⟩ :: [⟨.label 2, "cd".toList⟩] := by
      rw [← (blocks_iff_of_occurs occurs).mp (blocks_splitOn _)]
      decide
    obtain ⟨before, behind, -, place, -, exported, -⟩ := entries_replace all
    exact ⟨occurs, before, behind, place, (exported occurs [] List.not_mem_nil).1⟩
  · have absent : ¬ Occurs " ;ab;;cd".toList := headers_eq_nil_iff.mp (by decide)
    have all : entries " ;ab;;cd".toList =
        [⟨.bare 0, "ab".toList⟩] ++ ⟨.bare 1, "cd".toList⟩ :: [] := by
      rw [entries_of_not_occurs absent]
      decide
    obtain ⟨before, behind, -, place, -, -, bare⟩ := entries_replace all
    exact ⟨absent, before, behind, place, bare absent _ (by decide) (by decide) (by decide)⟩

end PenDrawing.Listing
