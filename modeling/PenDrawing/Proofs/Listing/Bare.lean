import PenDrawing.Proofs.Listing.Segments
import PenDrawing.Proofs.Listing.Spread

/-!
# Payloads in a bare listing

Payloads may be written one after another, broken into lines that are not too short, with blanks
behind each of them (`bareSource`).  The route to reading them back:

* before each blank of such a listing stands a blank, a line that is longer than a keyword, or a
  text with a `;` in it (`Settled`), while the keyword of a header stands between two blanks, so no
  header occurs (`not_occurs_of_settled`);
* what is cut at each `;` is a payload behind the blanks of the one before (`pieces_append`), and
  nothing but blanks is left at the end (`exists_bareSource`).
-/

namespace PenDrawing.Listing

open Payload (letters ofStream symbols terminator)

/-- A drawing to be written into a bare listing: the width of its lines, if it is broken into
lines, and what is written behind it. -/
structure BareDrawing where
  path : Path
  width : Option Nat
  blanks : List Char

/-- The least width of lines in a bare listing: more than any keyword has. -/
def minWidth : Nat := 8

/-- A drawing that can be written. -/
structure BareDrawing.Fine (drawing : BareDrawing) : Prop where
  fits : drawing.path.length ≤ Record.capacity
  wide : ∀ width ∈ drawing.width, minWidth ≤ width
  blank : ∀ c ∈ drawing.blanks, Text.isBlank c = true

/-- The bare listing of some drawings. -/
def bareSource (compress : List UInt8 → List UInt8) :
    List BareDrawing → Except TooManyPoints (List Char)
  | [] => .ok []
  | drawing :: drawings => do
    let text ← Payload.encodeWith compress drawing.path
    let rest ← bareSource compress drawings
    return spread (columns drawing.width) 0 text ++ (drawing.blanks ++ rest)

/-! ## Lines that are longer than keywords -/

/-- Before each blank, at least `minWidth` characters have come since the blank before it, or none,
or a terminator has.  `since` counts those that came before the text; a terminator counts as many. -/
def Settled : (since : Nat) → List Char → Prop
  | _, [] => True
  | since, c :: cs =>
    if Text.isBlank c then (since = 0 ∨ minWidth ≤ since) ∧ Settled 0 cs
    else if c = terminator then Settled minWidth cs
    else Settled (since + 1) cs

/-- A blank may stand next to another one, or behind enough characters. -/
theorem settled_blank {c : Char} (h : Text.isBlank c = true) (since : Nat) (cs : List Char) :
    Settled since (c :: cs) ↔ (since = 0 ∨ minWidth ≤ since) ∧ Settled 0 cs := by
  rw [Settled, if_pos h]

theorem settled_terminator (since : Nat) (cs : List Char) :
    Settled since (terminator :: cs) ↔ Settled minWidth cs := by
  rw [Settled, if_neg (by decide), if_pos rfl]

/-- A letter counts as one character more since the last blank. -/
theorem settled_letter {c : Char} (h : Base64.isLetter c = true) (since : Nat) (cs : List Char) :
    Settled since (c :: cs) ↔ Settled (since + 1) cs := by
  have solid : ¬ Text.isBlank c = true := by
    rw [Payload.isBlank_of_isLetter h]
    exact Bool.false_ne_true
  rw [Settled, if_neg solid, if_neg (Payload.ne_terminator_of_isLetter h)]

theorem settled_letters {word : List Char} (h : ∀ c ∈ word, Base64.isLetter c = true) (since : Nat)
    (cs : List Char) : Settled since (word ++ cs) ↔ Settled (since + word.length) cs := by
  induction word generalizing since with
  | nil => exact Iff.rfl
  | cons c word ih =>
      rw [List.cons_append, settled_letter (h c List.mem_cons_self),
        ih fun d hd => h d (List.mem_cons_of_mem c hd), List.length_cons, Nat.add_assoc,
        Nat.add_comm 1]

/-- What follows a settled text is settled, whatever is counted. -/
theorem Settled.exists_of_append {since : Nat} {front back : List Char}
    (h : Settled since (front ++ back)) : ∃ later, Settled later back := by
  induction front generalizing since with
  | nil => exact ⟨since, h⟩
  | cons c front ih =>
      rw [List.cons_append, Settled] at h
      by_cases blank : Text.isBlank c = true
      · rw [if_pos blank] at h
        exact ih h.2
      · rw [if_neg blank] at h
        by_cases last : c = terminator
        · rw [if_pos last] at h
          exact ih h
        · rw [if_neg last] at h
          exact ih h

/-- After a gap, the count begins anew. -/
theorem Settled.of_gap {since : Nat} {gap rest : List Char} (hgap : Gap gap)
    (h : Settled since (gap ++ rest)) : (since = 0 ∨ minWidth ≤ since) ∧ Settled 0 rest := by
  obtain ⟨nonempty, blank⟩ := hgap
  induction gap generalizing since with
  | nil => exact absurd rfl nonempty
  | cons c gap ih =>
      rw [List.cons_append, settled_blank (blank c List.mem_cons_self)] at h
      refine ⟨h.1, ?_⟩
      cases gap with
      | nil => exact h.2
      | cons d gap =>
          exact (ih h.2 (List.cons_ne_nil d gap) fun e he => blank e (List.mem_cons_of_mem c he)).2

/-- Keywords are words, and too short for a line. -/
theorem Keyword.isLetter_of_mem_word (keyword : Keyword) :
    ∀ c ∈ keyword.word, Base64.isLetter c = true := by
  refine List.all_eq_true.mp ?_
  cases keyword with
  | comment => rfl
  | label => rfl

/-- The words of headers are narrower than any line of a payload. -/
theorem Keyword.length_word (keyword : Keyword) :
    0 < keyword.word.length ∧ keyword.word.length < minWidth := by
  cases keyword with
  | comment => decide
  | label => decide

/-- No header occurs in a settled text: its keyword would be a line of its own. -/
theorem not_occurs_of_settled {since : Nat} {source : List Char} (h : Settled since source) :
    ¬ Occurs source := by
  rintro ⟨before, after, rfl, header, spelled, rest, spells, rfl⟩
  obtain ⟨hgap₁, hgap₂, -, -⟩ := spells
  obtain ⟨_, atHeader⟩ := h.exists_of_append
  simp only [List.append_assoc] at atHeader
  obtain ⟨_, atGap⟩ := atHeader.exists_of_append
  -- the keyword begins behind a blank, and a blank follows it
  have atWord := (atGap.of_gap hgap₁).2
  rw [settled_letters header.keyword.isLetter_of_mem_word] at atWord
  have short := (atWord.of_gap hgap₂).1
  have length := header.keyword.length_word
  omega

/-! ## Broken payloads are settled -/

theorem settled_append_blanks {blanks rest : List Char}
    (h : ∀ c ∈ blanks, Text.isBlank c = true) (after : ∀ since, Settled since rest) {since : Nat}
    (ready : since = 0 ∨ minWidth ≤ since) : Settled since (blanks ++ rest) := by
  induction blanks generalizing since with
  | nil => exact after since
  | cons c blanks ih =>
      rw [List.cons_append, settled_blank (h c List.mem_cons_self)]
      exact ⟨ready, ih (fun d hd => h d (List.mem_cons_of_mem c hd)) (.inl rfl)⟩

/-- The line that a place is in began at a multiple of the width, and all of it has been
counted. -/
def InLine (width : Option Nat) (place since : Nat) : Prop :=
  ∀ w ∈ width, place = 0 ∨ ∃ start, start < place ∧ w ∣ start ∧ place ≤ start + since

theorem InLine.next {width : Option Nat} {place since : Nat} (h : InLine width place since) :
    InLine width (place + 1) (since + 1) := by
  intro w hw
  right
  rcases h w hw with rfl | ⟨start, before, divides, counted⟩
  · exact ⟨0, Nat.zero_lt_one, Nat.dvd_zero w, by omega⟩
  · exact ⟨start, by omega, divides, by omega⟩

/-- Where a line is broken it is full, so the text is settled if it is settled from there. -/
theorem settled_columns {width : Option Nat} (wide : ∀ w ∈ width, minWidth ≤ w) {place since : Nat}
    (line : InLine width place since) {rest : List Char}
    (after : ∀ later, InLine width (place + 1) (later + 1) → Settled later rest) :
    Settled since (columns width place ++ rest) := by
  cases width with
  | none => exact after since line.next
  | some w =>
      rw [columns]
      by_cases broken : 0 < place ∧ w ∣ place
      · rw [if_pos broken, List.singleton_append, settled_blank (by decide)]
        constructor
        · right
          rcases line w rfl with first | ⟨start, before, divides, counted⟩
          · omega
          · -- the line began at another multiple of the width
            have full : w ≤ place - start :=
              Nat.le_of_dvd (by omega) (Nat.dvd_sub broken.2 divides)
            have least := wide w rfl
            omega
        · refine after 0 fun v hv => .inr ⟨place, Nat.lt_succ_self place, ?_, Nat.le_refl _⟩
          rw [← Option.some.inj hv]
          exact broken.2
      · -- no line is broken here, so the line goes on
        rw [if_neg broken]
        exact after since line.next

/-- A payload in lines of at least the least width is settled. -/
theorem settled_spread {width : Option Nat} (wide : ∀ w ∈ width, minWidth ≤ w)
    {word rest : List Char} (h : ∀ c ∈ word, Base64.isLetter c = true)
    (after : Settled minWidth rest) {place since : Nat} (line : InLine width place since) :
    Settled since (spread (columns width) place (word ++ [terminator]) ++ rest) := by
  induction word generalizing place since with
  | nil =>
      rw [List.nil_append, spread, List.append_assoc]
      refine settled_columns wide line fun later _ => ?_
      exact (settled_terminator later _).mpr after
  | cons c word ih =>
      rw [List.cons_append, spread, List.append_assoc]
      refine settled_columns wide line fun later next => ?_
      rw [List.cons_append, settled_letter (h c List.mem_cons_self)]
      exact ih (fun d hd => h d (List.mem_cons_of_mem c hd)) next

/-! ## Pieces -/

/-- The pieces of a text that begins with a piece. -/
theorem pieces_append {payload behind rest : List Char} (clean : terminator ∉ payload)
    (ends : Ends behind rest) :
    pieces (payload ++ behind) =
      [payload].filter (fun payload => !payload.all Text.isBlank) ++ pieces rest := by
  rw [pieces_eq, piece_append clean ends, afterPiece_append clean ends]

theorem terminator_not_mem_of_blank {blanks : List Char}
    (h : ∀ c ∈ blanks, Text.isBlank c = true) : terminator ∉ blanks :=
  fun hmem => absurd (h terminator hmem) (by decide)

/-- A blank piece is skipped. -/
theorem pieces_skip {blanks behind rest : List Char}
    (h : ∀ c ∈ blanks, Text.isBlank c = true) (ends : Ends behind rest) :
    pieces (blanks ++ behind) = pieces rest := by
  rw [pieces_append (terminator_not_mem_of_blank h) ends, List.filter_cons_of_neg]
  · rfl
  · rw [List.all_eq_true.mpr h]
    exact Bool.false_ne_true

theorem pieces_of_blank {blanks : List Char} (h : ∀ c ∈ blanks, Text.isBlank c = true) :
    pieces blanks = [] := by
  rw [← List.append_nil blanks, pieces_skip h .atEnd, pieces_nil]

/-- A piece that is not blank is kept. -/
theorem pieces_of_solid {payload behind rest : List Char} (clean : terminator ∉ payload)
    (ends : Ends behind rest) (solid : payload.all Text.isBlank = false) :
    pieces (payload ++ behind) = payload :: pieces rest := by
  rw [pieces_append clean ends, List.filter_cons_of_pos]
  · rfl
  · rw [solid]
    rfl

/-- A piece with symbols is kept. -/
theorem pieces_of_symbols {payload behind rest : List Char} (clean : terminator ∉ payload)
    (ends : Ends behind rest) (solid : symbols payload ≠ []) :
    pieces (payload ++ behind) = payload :: pieces rest := by
  refine pieces_of_solid clean ends (Bool.eq_false_iff.mpr fun blank => solid ?_)
  exact Payload.symbols_of_blank (List.all_eq_true.mp blank)

/-- Drawings that can be written make a bare listing, in which no header occurs, and whose pieces
are read as their paths.  Blanks in front of the listing do not matter. -/
theorem exists_bareSource {compress : List UInt8 → List UInt8} (sound : Zlib.Compresses compress)
    (drawings : List BareDrawing) (fine : ∀ drawing ∈ drawings, drawing.Fine) :
    ∃ source, bareSource compress drawings = .ok source ∧ (∀ since, Settled since source) ∧
      ∀ lead : List Char, (∀ c ∈ lead, Text.isBlank c = true) →
        (pieces (lead ++ source)).map Payload.decode = drawings.map fun d => .ok d.path := by
  induction drawings with
  | nil =>
      refine ⟨[], rfl, fun _ => trivial, fun lead blank => ?_⟩
      rw [List.append_nil, pieces_of_blank blank]
      rfl
  | cons drawing drawings ih =>
      obtain ⟨fits, wide, blank⟩ := fine drawing List.mem_cons_self
      obtain ⟨rest, written, settled, read⟩ :=
        ih fun later hlater => fine later (List.mem_cons_of_mem drawing hlater)
      obtain ⟨stream, body, encoded, cut, clean, solid, decoded⟩ :=
        exists_spread_encodeWith (wrapping_columns drawing.width) sound fits
      refine ⟨spread (columns drawing.width) 0 (ofStream stream) ++ (drawing.blanks ++ rest),
        ?_, ?_, ?_⟩
      · rw [bareSource, encoded, written]
        rfl
      · intro since
        refine settled_spread wide (fun c hc => Payload.isLetter_of_mem_letters hc) ?_
          fun w hw => .inl rfl
        exact settled_append_blanks blank settled (.inr (Nat.le_refl _))
      · intro lead hlead
        have split : lead ++ (spread (columns drawing.width) 0 (ofStream stream) ++
            (drawing.blanks ++ rest)) =
            (lead ++ body) ++ terminator :: (drawing.blanks ++ rest) := by
          rw [cut, List.append_assoc, List.append_assoc, List.singleton_append]
        -- the blanks before it do not change what the payload stands for
        have clean' : terminator ∉ lead ++ body := fun h =>
          (List.mem_append.mp h).elim (terminator_not_mem_of_blank hlead) clean
        have same : symbols (lead ++ body) = symbols body := Payload.symbols_append hlead body
        rw [split, pieces_of_symbols clean' (.terminated _) (same ▸ solid), List.map_cons,
          read drawing.blanks blank, decoded _ same]
        rfl

end PenDrawing.Listing
