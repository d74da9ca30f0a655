import PenDrawing.Text.Visible

/-!
# Escaped texts

A text in a report stands between double quotes. What would not show there is written as an escape:
the usual letters behind a backslash, and the number of a character in base sixteen otherwise.

* **`escapeChar`** writes one character, **`escaped`** a whole text.
-/

namespace PenDrawing.Text

/-- The number of a character in base sixteen. -/
def escapeNumber (c : Char) : List Char :=
  "\\u\x7b".toList ++ Nat.toDigits 16 c.toNat ++ ['\x7d']

/-- A character as it stands between double quotes. -/
def escapeChar (c : Char) : List Char :=
  if c = Char.ofNat 0 then ['\\', '0']
  else if c = '\t' then ['\\', 't']
  else if c = '\x0d' then ['\\', 'r']
  else if c = '\n' then ['\\', 'n']
  else if c = '"' then ['\\', '"']
  else if c = '\\' then ['\\', '\\']
  else if isVisible c then [c]
  else escapeNumber c

/-- A text between double quotes. -/
def escaped (text : String) : String :=
  String.ofList ('"' :: text.toList.flatMap escapeChar ++ ['"'])

end PenDrawing.Text
