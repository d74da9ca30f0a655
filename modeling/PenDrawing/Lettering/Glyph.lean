/-!
# Letters as strokes

A letter is drawn on a sheet of its own, one unit wide and two units high, with the middle at
`(0, 0)` and heights growing upward. The space is a letter without strokes.
-/

namespace PenDrawing.Lettering

/-- A step of the pen on the sheet of a letter. -/
inductive Step where
  | to (x y : Float32)
  | lift

/-- Two thirds of the way from the middle to the top. -/
def twoThirds : Float32 := 2 / 3

/-- The strokes of a letter, unless it has none to its name. -/
def glyph? : Char → Option (List Step)
  | 'A' => some
    [.to (-0.5) (-1), .to (-0.5) 0.5, .to (-0.25) 1, .to 0.25 1, .to 0.5 0.5, .to 0.5 (-1),
      .lift, .to (-0.5) 0, .to 0.5 0]
  | 'B' => some
    [.to (-0.5) (-1), .to (-0.5) 1, .to 0.25 1, .to 0.5 0.5, .to 0.25 0, .to (-0.5) 0,
      .lift, .to 0.25 0, .to 0.5 (-0.5), .to 0.25 (-1), .to (-0.5) (-1)]
  | 'C' => some
    [.to 0.5 twoThirds, .to 0 1, .to (-0.5) twoThirds, .to (-0.5) (-twoThirds), .to 0 (-1),
      .to 0.5 (-twoThirds)]
  | ' ' => some []
  | _ => none

end PenDrawing.Lettering
