import PenDrawing.Toml.Value

/-!
# Putting tables together

A document names its tables in headers and, by dotted keys, in what it sets. What was named may be
added to only in some ways: a key is set once, a header is given once, and a dotted key adds to no
table but those that dotted keys made.

* **`setDotted`** sets a dotted key, **`openTable`** and **`openItem`** add the table of a header.
-/

namespace PenDrawing.Toml.Entries

/-- The entries with another value for a key that is there. -/
def replace (entries : Entries) (key : String) (value : Located Value) : Entries :=
  entries.map fun (k, v) => if k = key then (k, value) else (k, v)

/-- The entries with one more key at their end. -/
def add (entries : Entries) (key : String) (value : Located Value) : Entries :=
  entries ++ [(key, value)]

/-- The entries without a key. -/
def erase (entries : Entries) (key : String) : Entries := entries.filter (·.1 ≠ key)

/-- Changes the latest of some tables. -/
def changeLast (change : Entries → Option Entries) (items : List (Located Entries)) :
    Option (List (Located Entries)) :=
  match items.getLast? with
  | some last => (change last.value).map fun entries => items.dropLast ++ [⟨last.span, entries⟩]
  | none => none

/-- Sets the value of a dotted key, given as the parts before the last one and the last one. The
tables on the way are made where they are missing. Tables with a header of their own are closed to
dotted keys, and the last table on the way must be one that dotted keys made. -/
def setDotted (entries : Entries) (path : List (Located String)) (key : String)
    (value : Located Value) : Option Entries :=
  match path with
  | [] => if (entries.get? key).isSome then none else some (entries.add key value)
  | ⟨span, part⟩ :: rest =>
    match entries.get? part with
    | none =>
      (setDotted [] rest key value).map fun sub => entries.add part ⟨span, .table .dotted sub⟩
    | some ⟨span, .table origin sub⟩ =>
      if origin = .inline ∨ origin = .header ∨ rest = [] ∧ origin ≠ .dotted then none
      else
        (setDotted sub rest key value).map fun sub =>
          entries.replace part ⟨span, .table origin sub⟩
    | some ⟨span, .tables items⟩ =>
      if rest = [] then none
      else
        (changeLast (setDotted · rest key value) items).map fun items =>
          entries.replace part ⟨span, .tables items⟩
    | some _ => none

/-- Changes the entries of the table that the parts of a header but the last one name. The tables
on the way are made where they are missing, and of tables that share a header the latest is
meant. -/
def changeAt (entries : Entries) (path : List (Located String))
    (change : Entries → Option Entries) : Option Entries :=
  match path with
  | [] => change entries
  | ⟨span, part⟩ :: rest =>
    match entries.get? part with
    | none =>
      (changeAt [] rest change).map fun sub => entries.add part ⟨span, .table .implied sub⟩
    | some ⟨span, .table origin sub⟩ =>
      if origin = .inline then none
      else
        (changeAt sub rest change).map fun sub => entries.replace part ⟨span, .table origin sub⟩
    | some ⟨span, .tables items⟩ =>
      (changeLast (changeAt · rest change) items).map fun items =>
        entries.replace part ⟨span, .tables items⟩
    | some _ => none

/-- Adds the table of a header, whose entries `fill` sets. A table that only other headers implied
moves to the end and keeps what it holds. -/
def openTable (entries : Entries) (key : String) (span : Span)
    (fill : Entries → Option Entries) : Option Entries :=
  match entries.get? key with
  | none => (fill []).map fun sub => entries.add key ⟨span, .table .header sub⟩
  | some ⟨_, .table .implied sub⟩ =>
    (fill sub).map fun sub => (entries.erase key).add key ⟨span, .table .header sub⟩
  | some _ => none

/-- Adds one of the tables that share a header. Together they reach from the first to the last. -/
def openItem (entries : Entries) (key : String) (span : Span)
    (fill : Entries → Option Entries) : Option Entries :=
  match entries.get? key with
  | none => (fill []).map fun item => entries.add key ⟨span, .tables [⟨span, item⟩]⟩
  | some ⟨first, .tables items⟩ =>
    (fill []).map fun item =>
      entries.replace key ⟨first.through span, .tables (items ++ [⟨span, item⟩])⟩
  | some _ => none

end PenDrawing.Toml.Entries
