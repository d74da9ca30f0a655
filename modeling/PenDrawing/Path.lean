/-!
# Paths: what the pen does, point by point

A drawing is a list of grid points. The point `(0, 0)` is not drawn: it lifts the pen. What is
drawn is therefore the list of **strokes**, the maximal runs of points with the pen down.

* **`Path.strokes`** cuts a path into its strokes.
* **`strokesOf_penUp`** and **`strokesOf_penDown`** are the two rules it is built from: a pen-up
  point adds nothing, and a drawn point opens a stroke that runs up to the next pen-up point.
-/

namespace PenDrawing

/-- Whether the pen touches the paper. -/
inductive PenState where
  | up
  | down
deriving DecidableEq, Repr

/-- A position on the grid of a drawing, whose sides are 65536 points long. -/
structure Point where
  x : UInt16
  y : UInt16
deriving DecidableEq, Repr, Inhabited

namespace Point

/-- The point that lifts the pen instead of moving it. -/
def penUp : Point := ⟨0, 0⟩

/-- A point lifts the pen exactly when it is `penUp`. -/
def isPenUp (p : Point) : Bool := p == penUp

/-- The state of the pen at a point. -/
def penState (p : Point) : PenState := if p.isPenUp then .up else .down

/-- Only the origin lifts the pen. -/
theorem isPenUp_iff (p : Point) : p.isPenUp = true ↔ p = penUp := by
  simp [isPenUp]

end Point

/-- A drawing as it is stored: the points the pen visits, in order. -/
structure Path where
  points : List Point
deriving DecidableEq, Repr, Inhabited

namespace Path

/-- The path without points. -/
def empty : Path := ⟨[]⟩

/-- The number of points, pen-up points included. -/
def length (p : Path) : Nat := p.points.length

/-- A path is empty when it has no points at all. -/
def isEmpty (p : Path) : Bool := p.points.isEmpty

/-- The path with one more point at its end. -/
def push (p : Path) (point : Point) : Path := ⟨p.points ++ [point]⟩

/-- The point the path ends at. -/
def last? (p : Path) : Option Point := p.points.getLast?

/-- The state of the pen at every point. -/
def penStates (p : Path) : List PenState := p.points.map Point.penState

/-! ## Strokes -/

/-- The maximal runs of drawn points: pen-up points are skipped, and a drawn point takes all
drawn points that follow it into its run. -/
def strokesOf : List Point → List (List Point)
  | [] => []
  | p :: rest =>
    if p.isPenUp then strokesOf rest
    else
      (p :: rest.takeWhile (!·.isPenUp)) :: strokesOf (rest.dropWhile (!·.isPenUp))
termination_by ps => ps.length
decreasing_by
  · simp
  · have := List.dropWhile_sublist (l := rest) (fun q : Point => !q.isPenUp)
    have := this.length_le
    simp only [List.length_cons]
    omega

/-- The strokes of a path, in the order they are drawn. -/
def strokes (p : Path) : List (List Point) := strokesOf p.points

@[simp] theorem strokesOf_nil : strokesOf [] = [] := by
  rw [strokesOf]

/-- A pen-up point adds nothing to the strokes of what follows it. -/
theorem strokesOf_penUp {p : Point} (rest : List Point) (h : p.isPenUp = true) :
    strokesOf (p :: rest) = strokesOf rest := by
  rw [strokesOf, if_pos h]

/-- A drawn point opens a stroke that runs up to the next pen-up point. -/
theorem strokesOf_penDown {p : Point} (rest : List Point) (h : p.isPenUp = false) :
    strokesOf (p :: rest) =
      (p :: rest.takeWhile (!·.isPenUp)) :: strokesOf (rest.dropWhile (!·.isPenUp)) := by
  rw [strokesOf, if_neg (by simp [h])]

end Path

end PenDrawing
