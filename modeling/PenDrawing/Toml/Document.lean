import PenDrawing.Toml.Moment
import PenDrawing.Toml.Number
import PenDrawing.Toml.Quoted
import PenDrawing.Toml.Table

/-!
# Settings documents

A document is a list of lines that set keys, and of headers that say which table the keys after
them belong to. Blank lines and comments stand anywhere between them.

* **`valueAt`** scans a value; values nest no deeper than `depthLimit`.
* **`parse`** is the table that a document stands for, or nothing if the text is not a document.
-/

namespace PenDrawing.Toml

open Scan

/-- Arrays and inline tables nest less deep than this, and keys have fewer parts. -/
def depthLimit : Nat := 80

/-- Spaces and tabs. -/
def spaces : Scan Unit := do
  let _ ← run isSpace

/-- A comment, up to the end of its line. -/
def comment : Scan Unit := do
  char '#'
  let _ ← run isPlain

/-- What stands between the elements of an array: blanks, line ends and comments. -/
def gap : Scan Unit := do
  let _ ← many ((do let _ ← satisfy isSpace) <|> (do let _ ← lineEnd) <|> comment)

/-! ## Keys -/

/-- A character of a key without quotes. -/
def isBare (c : Char) : Bool :=
  Text.isAsciiDigit c || c.isAlpha || c == '-' || c == '_'

/-- A key of one part. -/
def simpleKey : Scan String := do
  let cs ← basic <|> literal <|> do
    let first ← satisfy isBare
    let more ← run isBare
    return first :: more
  return String.ofList cs

/-- A key of one part, with blanks around it. -/
def keyPart : Scan (Located String) := do
  spaces
  let key ← located simpleKey
  spaces
  return key

/-- A dotted key: the parts before the last one, with the places where they stand, and the last
one. -/
structure Key where
  path : List (Located String)
  last : String

/-- A dotted key, perhaps of one part only. -/
def key : Scan Key := do
  let first ← keyPart
  let more ← many do char '.'; keyPart
  if more.length + 1 < depthLimit then
    return ⟨(first :: more).dropLast, (more.getLast?.getD first).value⟩
  else failure

/-! ## Values -/

/-- Elements with commas between them. -/
def separated {α : Type} (p : Scan α) : Scan (List α) := do
  match ← perhaps p with
  | none => return []
  | some first =>
    let more ← many do char ','; p
    return first :: more

/-- The elements of an array, whose last one may have a comma behind it. -/
def array (element : Scan Value) : Scan Value := do
  char '['
  let items ← separated do
    gap
    let item ← located element
    gap
    return item
  unless items.isEmpty do
    let _ ← perhaps (char ',')
  gap
  char ']'
  return .array items

/-- A key that is set, and what it is set to. -/
structure Setting where
  key : Key
  value : Located Value

/-- A key, the sign behind it, and a value. -/
def setting (element : Scan Value) : Scan Setting := do
  let name ← key
  char '='
  spaces
  let value ← located element
  spaces
  return ⟨name, value⟩

/-- The table that settings make, one after another. -/
def settle (entries : Entries) (settings : List Setting) : Option Entries :=
  settings.foldlM (fun entries s => entries.setDotted s.key.path s.key.last s.value) entries

/-- A table between braces, on one line. -/
def inlineTable (element : Scan Value) : Scan Value := do
  char '\x7b'
  spaces
  let settings ← separated (setting element)
  spaces
  char '\x7d'
  match settle [] settings with
  | some entries => return .table .inline entries
  | none => failure

/-- A truth value. -/
def boolean : Scan Value :=
  (do word "true"; return .boolean true) <|> (do word "false"; return .boolean false)

/-- A value without parts. -/
def simple : Scan Value :=
  (do return .string (String.ofList (← quoted))) <|> boolean <|> moment <|> number

/-- A value, in which arrays and inline tables nest at most so deep. -/
def valueAt : (depth : Nat) → Scan Value
  | 0 => simple
  | depth + 1 => array (valueAt depth) <|> inlineTable (valueAt depth) <|> simple

/-- A value. -/
def value : Scan Value := valueAt (depthLimit - 1)

/-! ## Lines -/

/-- What may stand behind a setting or a header: blanks, a comment, and the end of the line or of
the document. -/
def trailing : Scan Unit := do
  spaces
  let _ ← perhaps comment
  (do let _ ← lineEnd) <|> finish

/-- A table's settings, up to the next header. -/
def settings : Scan (List Setting) := do
  let lines ← many <|
    (do return some (← (do let s ← setting value; trailing; return s))) <|>
    (do spaces; let _ ← lineEnd; return none) <|>
    (do spaces; comment; (do let _ ← lineEnd) <|> finish; return none)
  spaces
  return lines.filterMap id

/-- A header, whether it names one of several tables, and the settings of its table. -/
structure Section where
  shared : Bool
  name : Key
  /-- Where the header stands. -/
  span : Span
  settings : List Setting

/-- Where a section stands: from its header to its last value. -/
def Section.extent (s : Section) : Span :=
  match s.settings.getLast? with
  | some last => s.span.through last.value.span
  | none => s.span

/-- A header: whether it names one of several tables, and their name. -/
def header : Scan (Bool × Key) := do
  char '['
  let shared ← perhaps (char '[')
  let name ← key
  char ']'
  if shared.isSome then char ']'
  return (shared.isSome, name)

/-- A header with the settings after it. -/
def tableSection : Scan Section := do
  spaces
  let ⟨span, shared, name⟩ ← located header
  trailing
  return ⟨shared, name, span, ← settings⟩

/-- A table with one more section. -/
def addSection (entries : Entries) (s : Section) : Option Entries :=
  let fill (sub : Entries) := settle sub s.settings
  entries.changeAt s.name.path fun entries =>
    if s.shared then entries.openItem s.name.last s.extent fill
    else entries.openTable s.name.last s.extent fill

/-- The sections of a document, the first one without a header. A mark that says how the text is
encoded may stand in front. -/
def document : Scan (List Setting × List Section) := do
  let _ ← perhaps (char '\ufeff')
  let top ← settings
  let sections ← many tableSection
  spaces
  finish
  return (top, sections)

/-- The table that a document stands for. -/
def parse (text : String) : Option Entries :=
  match document text.toList with
  | some ((top, sections), _) => do
    let entries ← settle [] top
    sections.foldlM addSection entries
  | none => none

end PenDrawing.Toml
