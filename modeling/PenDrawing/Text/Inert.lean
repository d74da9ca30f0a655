import PenDrawing.Text.Escaped

/-!
# Texts that steer no terminal

Some control characters make a terminal do something: ring, go back, begin a command. In a note they
are shown by their number instead. All other characters stay as they are, line ends too.

* **`inert`** is a text without such characters.
-/

namespace PenDrawing.Text

/-- A control character of one byte that makes a terminal do something. -/
def isSteering (c : Char) : Bool :=
  c == '\x07' || c == '\x08' || c == '\x0c' || c == '\x1b' || c == '\x7f'

/-- A control character that does the same with one byte as others after an escape. -/
def isHighControl (c : Char) : Bool := 0x80 ≤ c.toNat && c.toNat ≤ 0x9F

/-- The number of a character in two digits of base sixteen. -/
def twoDigits (c : Char) : List Char :=
  [Nat.digitChar (c.toNat / 16), Nat.digitChar (c.toNat % 16)]

/-- A character as it stands in a note. -/
def inertChar (c : Char) : List Char :=
  if isSteering c then '\\' :: 'x' :: twoDigits c
  else if isHighControl c then escapeNumber c
  else [c]

/-- A text as it stands in a note. -/
def inert (text : String) : String := String.ofList (text.toList.flatMap inertChar)

end PenDrawing.Text
