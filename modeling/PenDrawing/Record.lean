import PenDrawing.Path

/-!
# Records: the stored form of a path

A record is always 1028 bytes long: the number of points as four bytes, then the points as four
bytes each, then zeros. All numbers have their low byte first. So a record holds at most 256
points.

* **`Record.write`** lays a path out, and refuses a path with more points than fit.
* **`Record.read`** takes a record apart; it looks neither at the size nor at the bytes past the
  declared points more than it has to.
-/

namespace PenDrawing

/-- Why bytes are not a record. -/
inductive RecordError where
  /-- The bytes are not as many as a record has. -/
  | unexpectedSize (actual : Nat)
  /-- The record declares more points than fit into it. -/
  | truncatedPath (declared : Nat)
deriving DecidableEq, Repr

/-- A path that has more points than a record holds. -/
structure TooManyPoints where
  count : Nat
deriving DecidableEq, Repr

namespace Record

/-- The bytes that hold the number of points. -/
def headerSize : Nat := 4

/-- The bytes that hold one point. -/
def pointSize : Nat := 4

/-- The most points that a record holds. -/
def capacity : Nat := 256

/-- The bytes of a record. -/
def size : Nat := headerSize + pointSize * capacity

/-- The number that two bytes stand for, the low byte first. -/
def word (lo hi : UInt8) : UInt16 := UInt16.ofNat (lo.toNat + 256 * hi.toNat)

/-- The two bytes of a number, the low byte first. -/
def wordBytes (w : UInt16) : List UInt8 :=
  [UInt8.ofNat (w.toNat % 256), UInt8.ofNat (w.toNat / 256)]

/-- The number that a list of bytes stands for, the low byte first. -/
def number : List UInt8 → Nat
  | [] => 0
  | b :: rest => b.toNat + 256 * number rest

/-- The lowest `width` bytes of a number, the low byte first. -/
def numberBytes : (width : Nat) → Nat → List UInt8
  | 0, _ => []
  | width + 1, n => UInt8.ofNat (n % 256) :: numberBytes width (n / 256)

/-- The bytes of a point: its `x`, then its `y`. -/
def pointBytes (p : Point) : List UInt8 := wordBytes p.x ++ wordBytes p.y

/-- The points that bytes stand for, four bytes a point. -/
def points : List UInt8 → List Point
  | x₀ :: x₁ :: y₀ :: y₁ :: rest => ⟨word x₀ x₁, word y₀ y₁⟩ :: points rest
  | _ => []

/-- Reads a record. The size counts first, then the declared number of points. -/
def read (bytes : List UInt8) : Except RecordError Path :=
  if bytes.length ≠ size then .error (.unexpectedSize bytes.length)
  else
    let declared := number (bytes.take headerSize)
    if headerSize + pointSize * declared > size then .error (.truncatedPath declared)
    else .ok ⟨points ((bytes.drop headerSize).take (pointSize * declared))⟩

/-- Writes a record, filled up with zeros. -/
def write (path : Path) : Except TooManyPoints (List UInt8) :=
  if path.length > capacity then .error ⟨path.length⟩
  else .ok (numberBytes headerSize path.length ++ path.points.flatMap pointBytes ++
    List.replicate (pointSize * (capacity - path.length)) 0)

/-! ## Lengths -/

@[simp] theorem length_numberBytes (width n : Nat) : (numberBytes width n).length = width := by
  induction width generalizing n with
  | zero => rfl
  | succ width ih => simp [numberBytes, ih]

@[simp] theorem length_pointBytes (p : Point) : (pointBytes p).length = pointSize := rfl

/-- Points are written one behind another, so their bytes add up. -/
theorem length_flatMap_pointBytes (ps : List Point) :
    (ps.flatMap pointBytes).length = pointSize * ps.length := by
  induction ps with
  | nil => rfl
  | cons p rest ih => simp [ih, pointSize]; omega

/-- What is written always has the size of a record. -/
theorem length_of_write {path : Path} {bytes : List UInt8} (h : write path = .ok bytes) :
    bytes.length = size := by
  rw [write] at h
  split at h
  · simp at h
  · rename_i fits
    injection h with h
    rw [← h]
    simp only [List.length_append, length_numberBytes, length_flatMap_pointBytes,
      List.length_replicate]
    simp only [Path.length, size, headerSize, pointSize, capacity] at *
    omega

end Record

/-- The text that reports why bytes are not a record. -/
def RecordError.message : RecordError → String
  | .unexpectedSize actual => s!"decoded record is {actual} bytes, expected {Record.size}"
  | .truncatedPath declared =>
    s!"record declares {declared} points, which runs past the end of the record"

/-- The text that reports a path with too many points. -/
def TooManyPoints.message (e : TooManyPoints) : String :=
  s!"path has {e.count} points, a program holds at most {Record.capacity}"

end PenDrawing
