/-!
# From numbers to whole numbers

The grid of a drawing and the pixels of a picture are whole numbers, and so their numbers of four
bytes are rounded in three ways: down, up, and to the nearest. What lies outside of the whole
numbers that fit goes to the nearest end, and what is not a number goes to zero.

* **`floorWord`**, **`ceilWord`** and **`nearestWord`** are the three ways.
* **`between`** keeps a number within limits, **`larger`** takes the larger of two numbers, and of
  a number and what is none the number.
-/

namespace PenDrawing.Rounding

/-- The largest whole number not above a number, and at least zero. -/
def floorWord (x : Float32) : UInt32 := x.toUInt32

/-- The largest whole number that fits. -/
def greatest : UInt32 := 4294967295

/-- The least whole number not below a number, and at least zero. -/
def ceilWord (x : Float32) : UInt32 :=
  let below := x.toUInt32
  if below.toFloat32 < x && below < greatest then below + 1 else below

/-- The whole number nearest to a number; a half goes up. -/
def nearestWord (x : Float32) : UInt32 :=
  let below := x.toUInt32
  if x - below.toFloat32 ≥ 0.5 && below < greatest then below + 1 else below

/-- The number, or the limit it lies beyond. -/
def between (low high x : Float32) : Float32 :=
  if x < low then low else if high < x then high else x

/-- The larger of two numbers; what is not a number does not count. -/
def larger (x y : Float32) : Float32 :=
  if x.isNaN then y else if y.isNaN then x else if x < y then y else x

end PenDrawing.Rounding
