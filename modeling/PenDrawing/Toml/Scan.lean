import PenDrawing.Toml.Span

/-!
# Scanning a text

A **`Scan`** takes characters off the front of a text and gives a value, or fails without taking
any. Scans are put together with `do`, and `p <|> q` tries `q` where `p` fails.

* **`many`** repeats a scan as long as it succeeds. It always ends, because a text has only so many
  characters to take.
* **`located`** tells where in the text the value of a scan stands.
-/

namespace PenDrawing.Toml

/-- A step that takes characters off the front of a text. -/
abbrev Scan := StateT (List Char) Option

namespace Scan

/-- The next character, which must be of a class. -/
def satisfy (ok : Char → Bool) : Scan Char := fun cs =>
  match cs with
  | c :: rest => if ok c then some (c, rest) else none
  | [] => none

/-- The next character, which must be a given one. -/
def char (c : Char) : Scan Unit := do
  let _ ← satisfy (· == c)

/-- A given text. -/
def word (text : String) : Scan Unit := fun cs =>
  if text.toList.isPrefixOf cs then some ((), cs.drop text.toList.length) else none

/-- The longest run of characters of a class, which may be empty. -/
def run (ok : Char → Bool) : Scan (List Char) := fun cs =>
  some (cs.takeWhile ok, cs.dropWhile ok)

/-- Exactly `count` characters of a class. -/
def exactly (ok : Char → Bool) : (count : Nat) → Scan (List Char)
  | 0 => pure []
  | count + 1 => do
    let c ← satisfy ok
    let more ← exactly ok count
    return c :: more

/-- The scan, or nothing. -/
def perhaps {α : Type} (p : Scan α) : Scan (Option α) := fun cs =>
  match p cs with
  | some (a, rest) => some (some a, rest)
  | none => some (none, cs)

/-- The next character, which stays where it is. -/
def peek : Scan (Option Char) := fun cs => some (cs.head?, cs)

/-- Nothing is left. -/
def finish : Scan Unit := fun cs => if cs.isEmpty then some ((), cs) else none

/-- The values of a scan repeated as long as it succeeds, at most `limit` times. -/
def manyFrom {α : Type} (p : Scan α) : (limit : Nat) → List Char → List α × List Char
  | 0, cs => ([], cs)
  | limit + 1, cs =>
    match p cs with
    | none => ([], cs)
    | some (a, rest) =>
      let (more, last) := manyFrom p limit rest
      (a :: more, last)

/-- A scan repeated as long as it succeeds. There are no more turns than characters, so no turn is
missed by a scan that takes one or more at each. -/
def many {α : Type} (p : Scan α) : Scan (List α) := fun cs => some (manyFrom p cs.length cs)

/-- What a scan gives, with the part of the text that it takes. -/
def located {α : Type} (p : Scan α) : Scan (Located α) := fun cs =>
  match p cs with
  | some (a, rest) => some (⟨⟨cs.length, rest.length⟩, a⟩, rest)
  | none => none

/-- What a scan takes, as text. -/
def taken {α : Type} (p : Scan α) : Scan (α × List Char) := fun cs =>
  match p cs with
  | some (a, rest) => some ((a, cs.take (cs.length - rest.length)), rest)
  | none => none

end Scan

end PenDrawing.Toml
