import PenDrawing.Toml.Scan

/-!
# Quoted texts

There are four ways to quote a text: between double quotes with escapes or between single quotes
without, and each on one line or, between three quotes, on several. Control characters other than
the tab stand in none of them, and line ends count as line feeds.
-/

namespace PenDrawing.Toml

open Scan

/-- A space or a tab. -/
def isSpace (c : Char) : Bool := c == ' ' || c == '\t'

/-- A character that may stand in a text or a comment: a tab, or no control character. -/
def isPlain (c : Char) : Bool := c == '\t' || (32 ≤ c.toNat && c.toNat ≠ 127)

/-- The end of a line. -/
def lineEnd : Scan Char := do
  word "\n" <|> word "\x0d\n"
  return '\n'

/-- The value of a digit of base sixteen. -/
def hexValue? (c : Char) : Option Nat :=
  let n := c.toNat
  if 48 ≤ n ∧ n ≤ 57 then some (n - 48)
  else if 65 ≤ n ∧ n ≤ 70 then some (n - 55)
  else if 97 ≤ n ∧ n ≤ 102 then some (n - 87)
  else none

/-- A character given by its number in `count` digits of base sixteen. -/
def numbered (count : Nat) : Scan Char := do
  let digits ← exactly (fun c => (hexValue? c).isSome) count
  let n := digits.foldl (fun n c => 16 * n + (hexValue? c).getD 0) 0
  if n < 0xD800 ∨ 0xE000 ≤ n ∧ n < 0x110000 then return Char.ofNat n else failure

/-- A character after a backslash. -/
def escape : Scan Char := do
  char '\\'
  match ← satisfy fun _ => true with
  | 'b' => return '\x08'
  | 't' => return '\t'
  | 'n' => return '\n'
  | 'f' => return '\x0c'
  | 'r' => return '\x0d'
  | '"' => return '"'
  | '\\' => return '\\'
  | 'u' => numbered 4
  | 'U' => numbered 8
  | _ => failure

/-- A text between double quotes. -/
def basic : Scan (List Char) := do
  char '"'
  let cs ← many (satisfy (fun c => isPlain c && c != '"' && c != '\\') <|> escape)
  char '"'
  return cs

/-- A text between single quotes. -/
def literal : Scan (List Char) := do
  char '\''
  let cs ← run fun c => isPlain c && c != '\''
  char '\''
  return cs

/-- A backslash at the end of a line, with all blanks up to the next text; it stands for
nothing. -/
def continuation : Scan Unit := do
  char '\\'
  let _ ← run isSpace
  let _ ← lineEnd
  let _ ← many (satisfy isSpace <|> lineEnd)

/-- The quotes that end a text between three quotes: the text may itself end in one or two. -/
def closing (quote : Char) : Scan (List Char) := do
  let quotes ← run (· == quote)
  if 3 ≤ quotes.length ∧ quotes.length ≤ 5 then return quotes.drop 3 else failure

/-- One or two quotes inside a text between three quotes. -/
def innerQuotes (quote : Char) : Scan (List Char) := do
  let quotes ← run (· == quote)
  if quotes.length = 1 ∨ quotes.length = 2 then return quotes else failure

/-- A text between three quotes, made of pieces; a line end right behind the opening quotes does
not count. -/
def multiline (quote : Char) (piece : Scan (List Char)) : Scan (List Char) := do
  word (String.ofList [quote, quote, quote])
  let _ ← perhaps lineEnd
  let pieces ← many (innerQuotes quote <|> piece)
  let last ← closing quote
  return pieces.flatten ++ last

/-- A text between three double quotes. -/
def basicMultiline : Scan (List Char) :=
  multiline '"' <|
    (return [← satisfy fun c => isPlain c && c != '"' && c != '\\']) <|>
      (do continuation; return []) <|> (return [← escape]) <|> (return [← lineEnd])

/-- A text between three single quotes. -/
def literalMultiline : Scan (List Char) :=
  multiline '\'' <|
    (return [← satisfy fun c => isPlain c && c != '\'']) <|> (return [← lineEnd])

/-- A quoted text. -/
def quoted : Scan (List Char) := basicMultiline <|> literalMultiline <|> basic <|> literal

end PenDrawing.Toml
