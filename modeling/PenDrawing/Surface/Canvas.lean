import PenDrawing.Surface.Command
import PenDrawing.Surface.Style

/-!
# A surface of marks that appear over time

A canvas keeps its marks in a list, in shares of its sides, and shows a growing part of the list.
Time that is too short for another mark is kept and counts later.

* **`Canvas.advance`** lets time pass. Time is measured in nanoseconds and bounded by `Duration`,
  and marks are counted in machine words; more than either holds is an **`Overrun`**.
* **`Canvas.draw`** is what is to be drawn in a window, mark by mark.
-/

namespace PenDrawing

/-! ## Time -/

/-- The nanoseconds in a second. -/
def nanosPerSecond : Nat := 1000000000

/-- Nanoseconds from here on are too many. -/
def durationLimit : Nat := Nat.pow 2 64 * nanosPerSecond

/-- A time in nanoseconds, of fewer than `2 ^ 64` seconds. -/
structure Duration where
  nanos : Nat
  nanos_lt : nanos < durationLimit
deriving DecidableEq, Repr

/-- What is too much when time passes. -/
inductive Overrun where
  /-- Two times are too long together. -/
  | time
  /-- More marks would have to appear than a machine word can count. -/
  | count
deriving DecidableEq, Repr

/-- The text that reports what is too much. -/
def Overrun.message : Overrun → String
  | .time => "overflow when adding durations"
  | .count => "attempt to add with overflow"

namespace Duration

/-- No time. -/
def zero : Duration := ⟨0, by decide⟩

instance : Inhabited Duration := ⟨zero⟩

/-- A time, or the longest one. -/
def ofNanos (nanos : Nat) : Duration :=
  ⟨min nanos (durationLimit - 1), by
    have : 0 < durationLimit := by decide
    omega⟩

/-- Two times together. -/
def add (a b : Duration) : Except Overrun Duration :=
  if h : a.nanos + b.nanos < durationLimit then .ok ⟨a.nanos + b.nanos, h⟩ else .error .time

/-- What is left of a time after as many steps as fit. -/
def remainder (a : Duration) (step : Nat) : Duration :=
  ⟨a.nanos % step, Nat.lt_of_le_of_lt (Nat.mod_le _ _) a.nanos_lt⟩

end Duration

/-! ## Marks -/

/-- A mark, in shares of the sides of a canvas. -/
inductive Mark where
  | dot (center : Place) (size : Float32)
  | line (start finish : Place)

/-- The marks of a surface: how many of them are shown, how fast more appear and the time kept for
them, the part of the world the surface shows, where the pen is down, in shares of the sides, and
whether the session has ended. -/
structure Canvas where
  marks : Array Mark
  revealed : Nat
  speed : Speed
  bounds : Bounds
  pen : Option Place
  style : Style
  banked : Duration
  closed : Bool

namespace Canvas

/-- A canvas without marks. -/
def blank (style : Style) : Canvas :=
  ⟨#[], 0, .fastest, .program, none, style, .zero, false⟩

/-- The marks that are shown. -/
def revealedMarks (c : Canvas) : List Mark := c.marks.toList.take c.revealed

/-- All marks are shown. -/
def isComplete (c : Canvas) : Bool := c.revealed == c.marks.size

/-- Shows all marks. -/
def revealAll (c : Canvas) : Canvas := { c with revealed := c.marks.size, banked := .zero }

/-- Counts from here on are too large for a machine word. -/
def countLimit : Nat := Nat.pow 2 64

/-- Lets time pass. Without a wait between steps all marks appear; where all are shown already
nothing happens, and no time is kept. Of the number of steps that fit into the time only the low 64
bits count. Sums are checked: times that are too long together change nothing, and where the steps
overrun the count of marks no mark appears, but the time is used up. (Where sums of words are not
checked, as a build may choose, the count would wrap around there instead.) -/
def advance (c : Canvas) (time : Duration) : Canvas × Except Overrun Unit :=
  match c.speed.stepDelay with
  | none => (c.revealAll, .ok ())
  | some delay =>
    if c.isComplete then (c, .ok ())
    else
      match c.banked.add time with
      | .error overrun => (c, .error overrun)
      | .ok total =>
        let waiting := { c with banked := total.remainder delay }
        let count := c.revealed + total.nanos / delay % countLimit
        if count < countLimit then
          ({ waiting with revealed := min count c.marks.size }, .ok ())
        else (waiting, .error .count)

/-- The canvas with one more mark, not shown yet. -/
def add (c : Canvas) (mark : Mark) : Canvas := { c with marks := c.marks.push mark }

/-- The canvas with the pen moved, and a line behind it if it was down. -/
def moveTo (c : Canvas) (place : Place) : Canvas :=
  let target := c.bounds.normalize place
  match c.pen with
  | none => { c with pen := some target }
  | some start => { c.add (.line start target) with pen := some target }

/-- The canvas with a dot at the pen, if it is down. -/
def dot (c : Canvas) (size : Float32) : Canvas :=
  match c.pen with
  | none => c
  | some center => c.add (.dot center size)

instance : Surface Canvas where
  apply c
    | .setSpeed speed => { c with speed }
    | .setWorld bounds => { c with bounds, pen := none }
    | .penUp => { c with pen := none }
    | .moveTo place => c.moveTo place
    | .dot size => c.dot size
    | .clear => { c with marks := #[], revealed := 0, banked := .zero, pen := none }
    | .close => { c with closed := true }

end Canvas

/-! ## Windows -/

/-- The sides of a window by where they start and end, heights growing upward. -/
structure Window where
  xStart : Float32
  xEnd : Float32
  yStart : Float32
  yEnd : Float32

namespace Window

/-- The window of a size around a place. -/
def around (center : Place) (width height : Float32) : Window :=
  ⟨center.x - width / 2, center.x + width / 2, center.y - height / 2, center.y + height / 2⟩

def left (w : Window) : Float32 := if w.xStart > w.xEnd then w.xEnd else w.xStart

def top (w : Window) : Float32 := if w.yStart > w.yEnd then w.yStart else w.yEnd

/-- The distance from a start to an end. -/
def extent (start finish : Float32) : Float32 :=
  let length := finish - start
  if length < 0 then -length else length

def width (w : Window) : Float32 := extent w.xStart w.xEnd

def height (w : Window) : Float32 := extent w.yStart w.yEnd

/-- Where a place given in shares of the sides lies in a window. -/
def locate (w : Window) (share : Place) : Place :=
  ⟨w.left + share.x * w.width, w.top - share.y * w.height⟩

end Window

/-- A shape to be drawn in a window. -/
inductive Shape where
  | ellipse (center : Place) (width height : Float32)
  /-- A line with round ends. -/
  | line (start finish : Place) (weight : Float32)

/-- What a mark is in a window. -/
def Mark.shape (mark : Mark) (style : Style) (w : Window) : Shape :=
  match mark with
  | .dot center size => .ellipse (w.locate center) size size
  | .line start finish => .line (w.locate start) (w.locate finish) style.penSize

/-- What is to be drawn in a window. -/
def Canvas.draw (c : Canvas) (w : Window) : List Shape :=
  c.revealedMarks.map (·.shape c.style w)

end PenDrawing
