import PenDrawing.Path

/-!
# The world a drawing lies in

The grid of a drawing is laid into a world of numbers, 100 points to a unit. A surface sees a part
of the world, its **`Bounds`**, and measures places in shares of it: `(0, 0)` is the top left
corner and `(1, 1)` the bottom right one.

* **`Point.toWorld`** lays a point into the world.
* **`Bounds.normalize`** turns places of the world into shares.
-/

namespace PenDrawing

/-- A place in the plane. -/
structure Place where
  x : Float32
  y : Float32

namespace Place

/-- The way from one place to another, in a share `t` of it. -/
def toward (start finish : Place) (t : Float32) : Place :=
  ⟨start.x + (finish.x - start.x) * t, start.y + (finish.y - start.y) * t⟩

/-- The length of the way from one place to another. -/
def distance (start finish : Place) : Float32 :=
  let dx := start.x - finish.x
  let dy := start.y - finish.y
  (dx * dx + dy * dy).sqrt

end Place

/-- How many points of the grid make a unit of the world. -/
def pointsPerUnit : Float32 := 100

/-- The length of the sides of the world. -/
def worldExtent : Float32 := 655.36

/-- Where a point lies in the world. -/
def Point.toWorld (p : Point) : Place :=
  ⟨p.x.toFloat32 / pointsPerUnit, p.y.toFloat32 / pointsPerUnit⟩

/-- The part of the world that a surface shows, by two of its corners. With the corners' heights
exchanged the picture is upside down. -/
structure Bounds where
  lowerLeft : Place
  upperRight : Place

namespace Bounds

/-- The whole world, with the heights growing downward. -/
def program : Bounds := ⟨⟨0, worldExtent⟩, ⟨worldExtent, 0⟩⟩

def width (b : Bounds) : Float32 := b.upperRight.x - b.lowerLeft.x

def height (b : Bounds) : Float32 := b.upperRight.y - b.lowerLeft.y

/-- A place in shares of the bounds, from the top left corner on. -/
def normalize (b : Bounds) (p : Place) : Place :=
  ⟨(p.x - b.lowerLeft.x) / b.width, (b.upperRight.y - p.y) / b.height⟩

end Bounds

end PenDrawing
