import PenDrawing.Surface.Command

/-!
# Drawing a path on a surface

A renderer owns a surface for a whole session. It draws a path by telling the surface the speed and
to show the whole world, and then a command or two for each point; nothing is said for a path
without points.

* **`pathCommands`** is all that is said for a path.
* **`Renderer.render`** says it.
-/

namespace PenDrawing

/-- What is said for a point: the pen is lifted, or moved and a dot made. -/
def pointCommands (dotSize : Float32) (p : Point) : List Command :=
  match p.penState with
  | .up => [.penUp]
  | .down => [.moveTo p.toWorld, .dot dotSize]

/-- What is said for a path. -/
def pathCommands (speed : Speed) (dotSize : Float32) (path : Path) : List Command :=
  if path.isEmpty then []
  else .setSpeed speed :: .setWorld .program :: path.points.flatMap (pointCommands dotSize)

/-- A surface in use, with the speed and the size of dots that paths are drawn with. -/
structure Renderer (σ : Type) where
  surface : σ
  speed : Speed
  dotSize : Float32

namespace Renderer

variable {σ : Type} [Surface σ]

/-- The size of dots that a renderer was told none. -/
def standardDotSize : Float32 := 10

/-- A renderer after a command to its surface. -/
def tell (r : Renderer σ) (command : Command) : Renderer σ :=
  { r with surface := Surface.apply r.surface command }

/-- Draws a path. -/
def render (r : Renderer σ) (path : Path) : Renderer σ :=
  { r with surface := applyAll r.surface (pathCommands r.speed r.dotSize path) }

/-- Takes all marks away. -/
def clear (r : Renderer σ) : Renderer σ := r.tell .clear

/-- Changes the speed that later paths are drawn with. -/
def setSpeed (r : Renderer σ) (speed : Speed) : Renderer σ := { r with speed }

/-- Ends the session and hands the surface back. -/
def close (r : Renderer σ) : σ := Surface.apply r.surface .close

/-- A path without points leaves everything as it is. -/
theorem render_of_isEmpty {path : Path} (r : Renderer σ) (h : path.isEmpty = true) :
    r.render path = r := by
  simp [render, pathCommands, h, applyAll]

end Renderer

/-- The note that a path was drawn, or that there was nothing to draw. -/
def renderNote (path : Path) : String :=
  if path.isEmpty then "Skipping empty path"
  else s!"Rendered {path.length} points in {path.strokes.length} strokes"

end PenDrawing
