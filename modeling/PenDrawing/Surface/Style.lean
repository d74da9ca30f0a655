/-!
# How a surface draws

The colours of ink and paper, and how wide dots and lines are.
-/

namespace PenDrawing

/-- A colour by its three shares of light, from 0 to 1. -/
structure Color where
  red : Float32
  green : Float32
  blue : Float32

/-- The colours and sizes that a surface draws with. -/
structure Style where
  ink : Color
  paper : Color
  dotSize : Float32
  penSize : Float32

/-- Black on white, ten pixels wide. -/
def Style.standard : Style := ⟨⟨0, 0, 0⟩, ⟨1, 1, 1⟩, 10, 10⟩

end PenDrawing
