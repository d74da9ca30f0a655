import PenDrawing.Listing.Block

/-!
# Reading a listing entry by entry

A listing with a header anywhere is an exported one, and its entries are its blocks. Any other
listing is a bare one: it is cut at each `;`, and the pieces that are not blank are its entries,
numbered from zero.

* A **`Cursor`** stands between entries; **`next?`** gives the entry it comes to.
* **`entries`** are all entries of a listing.
* A **`Walk`** decodes each entry as it comes to it, and remembers which one it was.
-/

namespace PenDrawing.Listing

/-- How entries are marked in a listing. -/
inductive Layout where
  | bare
  | exported
deriving DecidableEq, Repr

/-- The layout of a listing. -/
def Layout.of (source : List Char) : Layout :=
  if (findBlock? source).isSome then .exported else .bare

/-- A place in a listing. -/
structure Cursor where
  layout : Layout
  /-- What is still to be read. -/
  rest : List Char
  /-- The number of the next entry of a bare listing. -/
  ordinal : Nat
deriving DecidableEq, Repr

/-- The next piece of a text that is not blank, and what follows it. -/
def nextPiece? (cs : List Char) : Option (List Char × List Char) :=
  if _h : cs = [] then none
  else if (piece cs).all Text.isBlank then nextPiece? (afterPiece cs)
  else some (piece cs, afterPiece cs)
termination_by cs.length
decreasing_by exact length_afterPiece_lt _h

/-- A piece takes something away, so cutting pieces off comes to an end. -/
theorem length_nextPiece?_lt {cs found rest : List Char}
    (h : nextPiece? cs = some (found, rest)) : rest.length < cs.length := by
  fun_induction nextPiece? cs with
  | case1 => simp at h
  | case2 cs nonempty _ ih =>
    have := length_afterPiece_lt nonempty
    have := ih h
    omega
  | case3 cs nonempty =>
    simp only [Option.some.injEq, Prod.mk.injEq] at h
    exact h.2 ▸ length_afterPiece_lt nonempty

namespace Cursor

/-- The place before the first entry. -/
def ofSource (source : List Char) : Cursor := ⟨.of source, source, 0⟩

/-- The entry that a cursor comes to, and the place after it. -/
def next? (cursor : Cursor) : Option (Entry × Cursor) :=
  match cursor.layout with
  | .exported => (findBlock? cursor.rest).map fun (entry, rest) => (entry, { cursor with rest })
  | .bare => (nextPiece? cursor.rest).map fun (payload, rest) =>
      (⟨.bare cursor.ordinal, payload⟩, { cursor with rest, ordinal := cursor.ordinal + 1 })

/-- A cursor that moves has less to read. -/
theorem length_next?_lt {cursor after : Cursor} {entry : Entry}
    (h : cursor.next? = some (entry, after)) : after.rest.length < cursor.rest.length := by
  rw [next?] at h
  split at h <;>
    simp only [Option.map_eq_some_iff, Prod.mk.injEq, Prod.exists] at h
  · obtain ⟨_, rest, found, -, rfl⟩ := h
    exact length_findBlock?_lt found
  · obtain ⟨_, rest, found, -, rfl⟩ := h
    exact length_nextPiece?_lt found

/-- The entries from a place on. -/
def entries (cursor : Cursor) : List Entry :=
  match _h : cursor.next? with
  | none => []
  | some (entry, after) => entry :: after.entries
termination_by cursor.rest.length
decreasing_by exact length_next?_lt _h

end Cursor

/-- The entries of a listing, in their order. -/
def entries (source : List Char) : List Entry := (Cursor.ofSource source).entries

/-! ## Walking through the drawings -/

/-- A walk through a listing: its place, and what the latest drawing was attached to. -/
structure Walk where
  cursor : Cursor
  current : Option Kind
deriving DecidableEq, Repr

namespace Walk

/-- A walk that has not begun. -/
def ofSource (source : List Char) : Walk := ⟨.ofSource source, none⟩

/-- Decodes the next drawing. At the end nothing changes any more. -/
def next? (walk : Walk) : Option (Except DecodeError Path × Walk) :=
  walk.cursor.next?.map fun (entry, cursor) => (entry.decode, ⟨cursor, some entry.kind⟩)

/-- Goes on to the end, and counts the drawings on the way. -/
def drain (walk : Walk) : Nat × Walk :=
  match _h : walk.cursor.next? with
  | none => (0, walk)
  | some (entry, cursor) =>
    let (count, last) := drain ⟨cursor, some entry.kind⟩
    (count + 1, last)
termination_by walk.cursor.rest.length
decreasing_by exact Cursor.length_next?_lt _h

end Walk

end PenDrawing.Listing
