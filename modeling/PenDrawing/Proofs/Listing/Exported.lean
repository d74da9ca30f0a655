import PenDrawing.Proofs.Listing.Segments
import PenDrawing.Proofs.Listing.Spread
import Mathlib.Data.List.Infix

/-!
# Payloads in an exported listing

Payloads may be written each behind a header of its own, with wrapping put into them, and with any
text around them in which the word that opens a header does not stand (`exportedSource`).  That word
does not overlap itself, so the next header is the next one that was written
(`leftmost_of_unopened`); its number is read back, and what follows it up to the `;` is the payload
behind some blanks (`exists_exportedSource`).
-/

namespace PenDrawing.Listing

open Payload (letters ofStream symbols terminator)

/-- A drawing to be written into an exported listing: what it is attached to, what is put into its
payload, and the text behind it. -/
structure ExportedDrawing where
  keyword : Keyword
  number : Nat
  path : Path
  gaps : Nat → List Char
  after : List Char

/-- What a drawing is attached to. -/
def ExportedDrawing.kind (drawing : ExportedDrawing) : Kind :=
  match drawing.keyword with
  | .comment => .comment drawing.number
  | .label => .label drawing.number

/-- A text in which the word that opens a header does not stand. -/
def Unopened (listing : List Char) : Prop := ¬ opening <:+: listing

instance (listing : List Char) : Decidable (Unopened listing) :=
  inferInstanceAs (Decidable (¬ opening <:+: listing))

/-- A drawing that can be written. -/
structure ExportedDrawing.Fine (drawing : ExportedDrawing) : Prop where
  small : drawing.number ≤ 999999999
  fits : drawing.path.length ≤ Record.capacity
  wraps : Wrapping drawing.gaps
  unopened : Unopened drawing.after

/-- A drawing of few enough points can be written in one line, with nothing behind it. -/
theorem ExportedDrawing.Fine.of_one_line (keyword : Keyword) {number : Nat} {path : Path}
    (small : number ≤ 999999999) (fits : path.length ≤ Record.capacity) :
    Fine ⟨keyword, number, path, fun _ => [], []⟩ :=
  ⟨small, fits, fun _ _ none => absurd none List.not_mem_nil, (by decide : Unopened [])⟩

/-- The line in front of a payload. -/
def ExportedDrawing.headline (drawing : ExportedDrawing) : List Char :=
  opening ++ ([' '] ++ (drawing.keyword.word ++ ([' '] ++
    (Nat.toDigits 10 drawing.number ++ ['\n']))))

/-- The part of an exported listing from its first header on. -/
def exportedSource (compress : List UInt8 → List UInt8) :
    List ExportedDrawing → Except TooManyPoints (List Char)
  | [] => .ok []
  | drawing :: drawings => do
    let text ← Payload.encodeWith compress drawing.path
    let rest ← exportedSource compress drawings
    return drawing.headline ++ (spread drawing.gaps 0 text ++ (drawing.after ++ rest))

/-! ## Headers that were written -/

theorem digits_toDigits {n : Nat} (small : n ≤ 999999999) : Digits (Nat.toDigits 10 n) where
  nonempty := Nat.toDigits_ne_nil
  few := (Nat.length_toDigits_le_iff (by decide) (by decide)).mpr (by
    show n < 10 ^ 9
    omega)
  digit := fun _ hc => Text.isDigit_of_isAscii (Text.isAsciiDigit_of_mem_toDigits hc)

theorem gap_singleton {c : Char} (h : Text.isBlank c = true) : Gap [c] where
  nonempty := List.cons_ne_nil c []
  blank := by
    intro d hd
    rw [List.mem_singleton.mp hd]
    exact h

/-- The header that a headline spells, with any blanks behind it. -/
def ExportedDrawing.header (drawing : ExportedDrawing) : Header :=
  ⟨drawing.keyword, Nat.toDigits 10 drawing.number⟩

/-- What is written in front of a payload spells its header. -/
theorem ExportedDrawing.spells {drawing : ExportedDrawing} (small : drawing.number ≤ 999999999) :
    drawing.header.Spells drawing.headline :=
  .intro (gap_singleton (by decide)) (gap_singleton (by decide)) (digits_toDigits small)
    (gap_singleton (by decide))

/-- The header of a drawing says what the drawing is attached to. -/
theorem ExportedDrawing.kind_header (drawing : ExportedDrawing) :
    drawing.header.kind = drawing.kind := by
  have number : drawing.header.number = drawing.number := by
    rw [Header.number, header, Text.value?_toDigits]
    rfl
  rw [Header.kind, kind, number]
  rfl

/-! ## Text around headers -/

/-- Whatever spells a header begins with the opening word. -/
theorem opening_isPrefix_of_spells {header : Header} {spelled : List Char}
    (h : header.Spells spelled) : opening <+: spelled := by
  obtain ⟨hgap₁, hgap₂, hdigits, hgap₃⟩ := h
  exact List.prefix_append _ _

/-- No header occurs where its opening word does not stand. -/
theorem not_occurs_of_unopened {listing : List Char} (h : Unopened listing) : ¬ Occurs listing := by
  rintro ⟨before, after, rfl, header, spelled, rest, spells, rfl⟩
  obtain ⟨tail, rfl⟩ := opening_isPrefix_of_spells spells
  exact h ⟨before, tail ++ rest, by simp only [List.append_assoc]⟩

/-- The opening word does not overlap itself: where it stands behind a text that it is not in, it
does not begin any earlier. -/
theorem leftmost_of_unopened {listing : List Char} (h : Unopened listing) (tail : List Char) :
    Leftmost listing (opening ++ tail) := by
  rintro before after rfl nonempty ⟨header, spelled, rest, spells, whole⟩
  obtain ⟨spelled', rfl⟩ := opening_isPrefix_of_spells spells
  rw [List.append_assoc] at whole
  rcases List.append_eq_append_iff.mp whole with ⟨border, cut, same⟩ | ⟨behind, cut, -⟩
  · -- the word would be `after` and a border that it begins with itself
    obtain ⟨c, after, rfl⟩ := List.exists_cons_of_ne_nil nonempty
    cases border with
    | nil =>
        rw [List.append_nil] at cut
        exact h ⟨before, [], by rw [cut, List.append_nil]⟩
    | cons d border =>
        have first : d = 'D' := (List.cons.inj same).1.symm
        have again : 'D' ∈ opening.tail := by
          rw [cut, first]
          exact List.mem_append_right after List.mem_cons_self
        exact absurd again (by decide)
  · exact h ⟨before, behind, by rw [cut, List.append_assoc]⟩

/-- Drawings that can be written make an exported listing behind any unopened text, whose blocks are
read as their paths and are attached to what they were written for. -/
theorem exists_exportedSource {compress : List UInt8 → List UInt8}
    (sound : Zlib.Compresses compress) (drawings : List ExportedDrawing)
    (fine : ∀ drawing ∈ drawings, drawing.Fine) :
    ∃ source, exportedSource compress drawings = .ok source ∧
      ∀ listing, Unopened listing → ∃ entries, Blocks (listing ++ source) entries ∧
        entries.map Entry.decode = drawings.map (fun d => .ok d.path) ∧
        entries.map Entry.kind = drawings.map ExportedDrawing.kind := by
  induction drawings with
  | nil =>
      refine ⟨[], rfl, fun listing unopened => ⟨[], .none ?_, rfl, rfl⟩⟩
      rw [List.append_nil]
      exact not_occurs_of_unopened unopened
  | cons drawing drawings ih =>
      obtain ⟨small, fits, wraps, unopened⟩ := fine drawing List.mem_cons_self
      obtain ⟨rest, written, read⟩ :=
        ih fun later hlater => fine later (List.mem_cons_of_mem drawing hlater)
      obtain ⟨stream, body, encoded, cut, clean, -, decoded⟩ :=
        exists_spread_encodeWith wraps sound fits
      obtain ⟨entries, blocks, paths, kinds⟩ := read drawing.after unopened
      refine ⟨drawing.headline ++ (spread drawing.gaps 0 (ofStream stream) ++
        (drawing.after ++ rest)), ?_, ?_⟩
      · rw [exportedSource, encoded, written]
        rfl
      · intro listing unopened
        -- the blanks that the payload begins with belong to the header
        obtain ⟨run, payload, rfl, blank, stop⟩ := Text.exists_run Text.isBlank body
        have split : drawing.headline ++ (spread drawing.gaps 0 (ofStream stream) ++
            (drawing.after ++ rest)) =
            (drawing.headline ++ run) ++ (payload ++ terminator :: (drawing.after ++ rest)) := by
          rw [cut]
          simp only [List.append_assoc, List.singleton_append]
        have trimmed : symbols payload = symbols (run ++ payload) :=
          (Payload.symbols_append blank payload).symm
        refine ⟨⟨drawing.header.kind, payload⟩ :: entries, ?_, ?_, ?_⟩
        · rw [split]
          refine .next ?_ ((drawing.spells small).append blank) stop ?_ (.terminated _) blocks
          · rw [ExportedDrawing.headline]
            simp only [List.append_assoc]
            exact leftmost_of_unopened unopened _
          · exact fun h => clean (List.mem_append_right run h)
        · rw [List.map_cons, List.map_cons, paths, Entry.decode, decoded _ trimmed]
        · rw [List.map_cons, List.map_cons, kinds, drawing.kind_header]

end PenDrawing.Listing
