/-!
# Where things stand in a text

A **`Span`** is a part of a text, and something **`Located`** is told together with its span. To
show where it stands there is an **`Excerpt`**: the number of its line and column, and the line
itself with marks under it.

Spans are counted from the end of a text, in the characters that are left, so that a reader that
knows only what is still to be read can tell them.
-/

namespace PenDrawing.Toml

/-- A part of a text: how many characters are left where it starts, and where it ends. -/
structure Span where
  start : Nat
  stop : Nat
deriving DecidableEq, Repr

/-- Both spans and what stands between them. -/
def Span.through (first last : Span) : Span := ⟨first.start, last.stop⟩

/-- Something that stands in a text. -/
structure Located (α : Type) where
  span : Span
  value : α
deriving Repr

/-- What shows a place in a text. -/
structure Excerpt where
  /-- The line, counted from zero. -/
  line : Nat
  /-- The characters that stand before it in its line. -/
  column : Nat
  /-- Its line. -/
  content : List Char
  /-- How many marks stand under it. -/
  marks : Nat
deriving DecidableEq, Repr

/-- How many bytes some characters take. -/
def byteCount (cs : List Char) : Nat := cs.foldl (fun count c => count + c.utf8Size) 0

/-- The place where a part of a text starts. There is a mark for each byte of the part, but for no
more than the bytes of the line exceed the characters before the part, and at least one. -/
def Span.excerpt (span : Span) (text : List Char) : Excerpt :=
  let before := text.take (text.length - span.start)
  let after := text.drop before.length
  let head := (before.reverse.takeWhile (· ≠ '\n')).reverse
  let content := head ++ after.takeWhile (· ≠ '\n')
  let bytes := byteCount (after.take (span.start - span.stop))
  ⟨before.count '\n', head.length, content, max 1 (min bytes (byteCount content - head.length))⟩

/-- The text that shows a place: its line and column, and the line with marks under it, behind a
margin that is as wide as the number of the line. -/
def Excerpt.text (e : Excerpt) : String :=
  let number := toString (e.line + 1)
  let margin := "".pushn ' ' (number.length + 1)
  s!"TOML parse error at line {number}, column {e.column + 1}\n{margin}|\n" ++
    s!"{number} | {String.ofList e.content}\n{margin}|" ++
    "".pushn ' ' (e.column + 1) ++ "".pushn '^' e.marks ++ "\n"

end PenDrawing.Toml
