import PenDrawing.Toml.Span

/-!
# What a settings document holds

A document is a table of values by key, in the order in which the keys first appear. Values are
texts, whole numbers, numbers, truth values, moments, arrays and tables. How a table came about is
kept with it, because that decides whether a later part of the document may add to it. With each
value stands the part of the document that it comes from; where only its name is written, that is
the name.
-/

namespace PenDrawing.Toml

/-- How a table came about. -/
inductive Origin where
  /-- Between braces. -/
  | inline
  /-- As a part of a dotted key. -/
  | dotted
  /-- As a part of the name of another table. -/
  | implied
  /-- By a header of its own. -/
  | header
deriving DecidableEq, Repr

/-- A value of a document. -/
inductive Value where
  | string (text : String)
  | integer (n : Int)
  | float (x : Float)
  | boolean (b : Bool)
  /-- A date, a time of day, or both, as written. -/
  | moment (text : String)
  | array (items : List (Located Value))
  | table (origin : Origin) (entries : List (String × Located Value))
  /-- Tables that share a header, from the first to the last. -/
  | tables (items : List (Located (List (String × Located Value))))

/-- A table's keys and values, in the order of the keys' first appearance. -/
abbrev Entries := List (String × Located Value)

/-- The value of a key. -/
def Entries.get? (entries : Entries) (key : String) : Option (Located Value) := entries.lookup key

end PenDrawing.Toml
