import PenDrawing.Lettering.Glyph
import PenDrawing.Record
import PenDrawing.Rounding

/-!
# Writing text into a drawing

Text is laid out on a sheet 420 units wide and 140 units high, thirteen letters to a line and two
lines at most; the sheet is then stretched over the grid. A short text stands on one line in the
middle.

* **`slot`** is where a letter stands, **`spot`** where a step of it falls on the grid.
* **`drawing`** puts the letters' strokes after one another and lifts the pen behind each letter
  that left it down.
* **`write`** is the whole, with its three ways to fail.
-/

namespace PenDrawing.Lettering

/-- Why a text cannot be written. -/
inductive Error where
  | tooLong (length : Nat)
  | unsupported (letter : Char)
  | tooManyPoints (cause : TooManyPoints)
deriving DecidableEq, Repr

/-- How many letters stand on a line. -/
def lineLength : Nat := 13

/-- How many letters a text may have. -/
def maxLength : Nat := 26

/-- The text that reports an error. -/
def Error.message : Error → String
  | .tooLong length => s!"text is {length} characters, at most {maxLength} fit"
  | .unsupported letter => s!"no glyph for character '{letter}'"
  | .tooManyPoints cause => cause.message

/-- The size of a letter. -/
def letterSize : Float32 := 16

/-- The space between letters. -/
def spacing : Float32 := 16

/-- How far lines are apart, in thirds of the sheet. -/
def lineHeight : Float32 := 1.25

def sheetWidth : Float32 := 420

def sheetHeight : Float32 := 140

/-- The largest number of the grid. -/
def gridMax : Nat := 65535

/-- Where the middle of the `n`-th letter of a text stands on the sheet; heights grow downward. -/
def slot (length n : Nat) : Float32 × Float32 :=
  let column := (UInt32.ofNat (n % lineLength)).toFloat32
  let line := (UInt32.ofNat (n / lineLength)).toFloat32
  (letterSize * (column + 1) + spacing * column,
    if length ≤ lineLength then sheetHeight / 2
    else sheetHeight / 3 + sheetHeight / 3 * line * lineHeight)

/-- A number of the sheet on the grid. What is drawn stays off zero, which lifts the pen. -/
def toGrid (v : UInt32) (extent : Float32) : UInt16 :=
  let nearest := Rounding.nearestWord (v.toFloat32 / extent * Float32.ofNat gridMax + 1)
  UInt16.ofNat (min nearest.toNat gridMax)

/-- Where a step of a letter falls on the grid. -/
def spot (slot : Float32 × Float32) : Step → Point
  | .lift => Point.penUp
  | .to x y =>
    ⟨toGrid (Rounding.floorWord (slot.1 + x * letterSize)) sheetWidth,
      toGrid (Rounding.floorWord (slot.2 - y * letterSize)) sheetHeight⟩

/-- The points with the pen lifted at their end, unless it is already or was never put down. -/
def liftAtEnd (points : List Point) : List Point :=
  match points.getLast? with
  | some last => if last.isPenUp then points else points ++ [Point.penUp]
  | none => points

/-- The drawing with one more letter. -/
def addLetter (drawing : List Point) (slot : Float32 × Float32) (steps : List Step) : List Point :=
  liftAtEnd (drawing ++ steps.map (spot slot))

/-- Adds the letters of a text from the `n`-th on, of `length` letters altogether. -/
def addLetters (length : Nat) : (n : Nat) → List Char → List Point → Except Error (List Point)
  | _, [], drawing => .ok drawing
  | n, c :: rest, drawing =>
    match glyph? c with
    | none => .error (.unsupported c)
    | some steps => addLetters length (n + 1) rest (addLetter drawing (slot length n) steps)

/-- Writes a text. -/
def write (text : List Char) : Except Error Path :=
  if text.length > maxLength then .error (.tooLong text.length)
  else
    match addLetters text.length 0 text [] with
    | .error cause => .error cause
    | .ok points =>
      if points.length > Record.capacity then .error (.tooManyPoints ⟨points.length⟩)
      else .ok ⟨points⟩

end PenDrawing.Lettering
