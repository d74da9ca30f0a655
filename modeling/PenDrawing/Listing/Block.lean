import PenDrawing.Listing.Entry
import PenDrawing.Text.Digit

/-!
# Blocks of an exported listing

An exported listing puts a header before each drawing: `DEFINE`, then `COMMENT` or `LABEL`, then a
number of one to nine digits, each followed by at least one blank. A block is a header, the longest
text without a `;` that follows, and that `;` if there is one.

* **`header?`** and **`block?`** look at the start of a text.
* **`findBlock?`** looks for the leftmost block; **`length_findBlock?_lt`** says that the text after
  it is shorter, so looking for one block after another comes to an end.
-/

namespace PenDrawing.Listing

/-- What a header says a drawing is attached to. -/
inductive Keyword where
  | comment
  | label
deriving DecidableEq, Repr

/-- A header: the keyword and the digits of the number. -/
structure Header where
  keyword : Keyword
  digits : List Char
deriving DecidableEq, Repr

/-- The most digits that the number of a header has. -/
def digitLimit : Nat := 9

/-- The number of a header; digits that are not ASCII digits have no value and count as zero. -/
def Header.number (header : Header) : Nat := (Text.value? header.digits).getD 0

/-- What a header attaches a drawing to. -/
def Header.kind (header : Header) : Kind :=
  match header.keyword with
  | .comment => .comment header.number
  | .label => .label header.number

/-- What follows a word that a text begins with. -/
def afterWord? (word : String) (cs : List Char) : Option (List Char) :=
  if word.toList.isPrefixOf cs then some (cs.drop word.toList.length) else none

/-- What follows the blanks that a text begins with, if there are any. -/
def afterBlanks? (cs : List Char) : Option (List Char) :=
  match cs with
  | c :: rest => if Text.isBlank c then some (rest.dropWhile Text.isBlank) else none
  | [] => none

/-- The keyword that a text begins with, and what follows it. -/
def keyword? (cs : List Char) : Option (Keyword × List Char) :=
  match afterWord? "COMMENT" cs with
  | some rest => some (.comment, rest)
  | none => (afterWord? "LABEL" cs).map (.label, ·)

/-- The digits that a text begins with, if they are not too many, and what follows them. -/
def digits? (cs : List Char) : Option (List Char × List Char) :=
  let digits := cs.takeWhile Text.isDigit
  if digits.isEmpty || digits.length > digitLimit then none
  else some (digits, cs.dropWhile Text.isDigit)

/-- The header that a text begins with, and what follows its last blank. -/
def header? (cs : List Char) : Option (Header × List Char) := do
  let cs ← afterWord? "DEFINE" cs
  let cs ← afterBlanks? cs
  let (keyword, cs) ← keyword? cs
  let cs ← afterBlanks? cs
  let (digits, cs) ← digits? cs
  let cs ← afterBlanks? cs
  return (⟨keyword, digits⟩, cs)

/-- The text up to the next terminator. -/
def piece (cs : List Char) : List Char := cs.takeWhile (· ≠ Payload.terminator)

/-- What follows the next terminator. -/
def afterPiece (cs : List Char) : List Char := (cs.dropWhile (· ≠ Payload.terminator)).drop 1

/-- The block that a text begins with, and what follows it. -/
def block? (cs : List Char) : Option (Entry × List Char) :=
  match header? cs with
  | none => none
  | some (header, body) => some (⟨header.kind, piece body⟩, afterPiece body)

/-- The leftmost block of a text, and what follows it. -/
def findBlock? : List Char → Option (Entry × List Char)
  | [] => none
  | c :: cs =>
    match block? (c :: cs) with
    | some found => some found
    | none => findBlock? cs

/-! ## Blocks take characters -/

theorem length_afterPiece_le (cs : List Char) : (afterPiece cs).length ≤ cs.length := by
  have := (List.dropWhile_sublist (l := cs) fun c => decide (c ≠ Payload.terminator)).length_le
  simp only [afterPiece, List.length_drop]
  omega

/-- Cutting a piece off always takes something away. -/
theorem length_afterPiece_lt {cs : List Char} (h : cs ≠ []) :
    (afterPiece cs).length < cs.length := by
  obtain ⟨c, rest, rfl⟩ := List.exists_cons_of_ne_nil h
  have := (List.dropWhile_sublist (l := rest) fun c => decide (c ≠ Payload.terminator)).length_le
  simp only [afterPiece, List.dropWhile_cons, List.length_drop]
  split <;> simp only [List.length_cons] <;> omega

theorem length_afterWord?_le {word : String} {cs rest : List Char}
    (h : afterWord? word cs = some rest) : rest.length ≤ cs.length := by
  rw [afterWord?] at h
  split at h
  · simp only [Option.some.injEq] at h
    simp [← h]
  · simp at h

theorem length_afterBlanks?_lt {cs rest : List Char} (h : afterBlanks? cs = some rest) :
    rest.length < cs.length := by
  cases cs with
  | nil => simp [afterBlanks?] at h
  | cons c cs =>
    simp only [afterBlanks?] at h
    split at h
    · simp only [Option.some.injEq] at h
      have := (List.dropWhile_sublist (l := cs) Text.isBlank).length_le
      simp only [← h, List.length_cons]
      omega
    · simp at h

theorem length_keyword?_le {cs rest : List Char} {keyword : Keyword}
    (h : keyword? cs = some (keyword, rest)) : rest.length ≤ cs.length := by
  rw [keyword?] at h
  split at h
  · rename_i after found
    simp only [Option.some.injEq, Prod.mk.injEq] at h
    exact h.2 ▸ length_afterWord?_le found
  · simp only [Option.map_eq_some_iff, Prod.mk.injEq] at h
    obtain ⟨after, found, -, rfl⟩ := h
    exact length_afterWord?_le found

theorem length_digits?_le {cs digits rest : List Char} (h : digits? cs = some (digits, rest)) :
    rest.length ≤ cs.length := by
  simp only [digits?] at h
  split at h
  · simp at h
  · simp only [Option.some.injEq, Prod.mk.injEq] at h
    exact h.2 ▸ (List.dropWhile_sublist Text.isDigit).length_le

theorem length_header?_lt {cs rest : List Char} {header : Header}
    (h : header? cs = some (header, rest)) : rest.length < cs.length := by
  simp only [header?, Option.bind_eq_bind, Option.bind_eq_some_iff, Option.pure_def,
    Option.some.injEq, Prod.mk.injEq, Prod.exists] at h
  obtain ⟨_, word, _, first, _, _, keyword, _, second, _, _, digits, _, third, -, rfl⟩ := h
  have := length_afterWord?_le word
  have := length_afterBlanks?_lt first
  have := length_keyword?_le keyword
  have := length_afterBlanks?_lt second
  have := length_digits?_le digits
  have := length_afterBlanks?_lt third
  omega

/-- A block takes something away, so looking for the next one comes to an end. -/
theorem length_block?_lt {cs rest : List Char} {entry : Entry}
    (h : block? cs = some (entry, rest)) : rest.length < cs.length := by
  rw [block?] at h
  split at h
  · simp at h
  · rename_i header body found
    simp only [Option.some.injEq, Prod.mk.injEq] at h
    have := length_header?_lt found
    have := length_afterPiece_le body
    rw [← h.2]
    omega

/-- What follows the leftmost block is shorter than the text. -/
theorem length_findBlock?_lt {cs rest : List Char} {entry : Entry}
    (h : findBlock? cs = some (entry, rest)) : rest.length < cs.length := by
  induction cs with
  | nil => simp [findBlock?] at h
  | cons c cs ih =>
    rw [findBlock?] at h
    split at h
    · rename_i found here
      simp only [Option.some.injEq] at h
      exact length_block?_lt (h ▸ here)
    · have := ih h
      simp only [List.length_cons]
      omega

end PenDrawing.Listing
