import PenDrawing.Payload

/-!
# Entries of a listing

A listing holds drawings as payloads. Each one is known by what it is attached to: a numbered
comment, a numbered label, or nothing but its place among the others.
-/

namespace PenDrawing.Listing

/-- What a drawing is attached to. -/
inductive Kind where
  | comment (number : Nat)
  | label (number : Nat)
  /-- A payload that stands on its own, by its place among such payloads. -/
  | bare (ordinal : Nat)
deriving DecidableEq, Repr

/-- The name of a kind, as it appears in reports and in file names. -/
def Kind.name : Kind → String
  | .comment number => s!"comment-{number}"
  | .label number => s!"label-{number}"
  | .bare ordinal => s!"program-{ordinal}"

/-- A payload of a listing, as it stands there. -/
structure Entry where
  kind : Kind
  payload : List Char
deriving DecidableEq, Repr

/-- The drawing of an entry. -/
def Entry.decode (entry : Entry) : Except DecodeError Path := Payload.decode entry.payload

end PenDrawing.Listing
