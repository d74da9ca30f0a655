import PenDrawing.Decimal.Shortest
import PenDrawing.Speed
import PenDrawing.World

/-!
# What a surface is told

A surface is drawn on with a pen that moves, like a turtle on paper. All that can be said to it is a
**`Command`**, and a **`Surface`** is a type whose values change with commands. Showing another part
of the world and clearing both lift the pen, so a new path is never joined to an old one.

* **`Command.text`** writes a command out: places with two decimals, sizes with as many as it
  takes.
* **`applyAll`** is a surface after several commands, and **`applyAll_append`** says that they may
  be given in two parts.
-/

namespace PenDrawing

/-- What can be said to a surface. -/
inductive Command where
  /-- How fast marks appear. -/
  | setSpeed (speed : Speed)
  /-- Which part of the world is shown. -/
  | setWorld (bounds : Bounds)
  /-- Lift the pen: nothing is drawn up to the next move. -/
  | penUp
  /-- Put the pen down and move it; where it was down already this draws a line. -/
  | moveTo (place : Place)
  /-- A dot at the place of the pen, so many pixels across. -/
  | dot (size : Float32)
  /-- Take all marks away. -/
  | clear
  /-- The session ends. -/
  | close

/-- A type whose values are drawn on. -/
class Surface (σ : Type) where
  /-- A surface after a command. -/
  apply : σ → Command → σ

/-- A surface after several commands. -/
def applyAll {σ : Type} [Surface σ] (surface : σ) (commands : List Command) : σ :=
  commands.foldl Surface.apply surface

theorem applyAll_append {σ : Type} [Surface σ] (surface : σ) (first second : List Command) :
    applyAll surface (first ++ second) = applyAll (applyAll surface first) second := by
  simp [applyAll]

namespace Command

/-- The places of a coordinate that are written out. -/
def places : Nat := 2

/-- The text of a coordinate. -/
def coordinateText (x : Float32) : String := Decimal.fixed places (.ofSingle x)

/-- The text of a size. -/
def sizeText (x : Float32) : String := Decimal.shortest Decimal.single (.ofSingle x)

/-- The text of a corner. -/
def cornerText (p : Place) : String := s!"({coordinateText p.x}, {coordinateText p.y})"

/-- The text of a command. -/
def text : Command → String
  | .setSpeed speed => s!"speed {speed.text}"
  | .setWorld bounds => s!"world {cornerText bounds.lowerLeft} {cornerText bounds.upperRight}"
  | .penUp => "pen-up"
  | .moveTo place => s!"move-to {coordinateText place.x} {coordinateText place.y}"
  | .dot size => s!"dot {sizeText size}"
  | .clear => "clear"
  | .close => "close"

end Command

end PenDrawing
