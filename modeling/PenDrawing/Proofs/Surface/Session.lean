import PenDrawing.Renderer

/-!
# Sessions with a surface

A session with a renderer is a list of turns: a path is drawn, the marks are cleared away, the speed
of later paths is changed, or the surface is told something directly.  All that a session does to
the surface are commands, so what every command keeps, a session keeps (`Renderer.after_keeps`).

What is said for a path begins by showing the whole world, unless the path has no points
(`pathCommands_of_points`, `pathCommands_of_isEmpty`).
-/

namespace PenDrawing

/-- What can be done with a renderer and its surface. -/
inductive Turn where
  | render (path : Path)
  | clear
  | setSpeed (speed : Speed)
  /-- The surface is told something directly. -/
  | tell (command : Command)

/-- What is said for a path that has points. -/
theorem pathCommands_of_points {path : Path} (h : path.isEmpty = false) (speed : Speed)
    (dotSize : Float32) :
    pathCommands speed dotSize path =
      .setSpeed speed :: .setWorld .program :: path.points.flatMap (pointCommands dotSize) := by
  rw [pathCommands, if_neg (ne_true_of_eq_false h)]

theorem pathCommands_of_isEmpty {path : Path} (h : path.isEmpty = true) (speed : Speed)
    (dotSize : Float32) : pathCommands speed dotSize path = [] := by
  rw [pathCommands, if_pos h]

variable {σ : Type} [Surface σ]

/-- What every command keeps, several commands keep. -/
theorem applyAll_keeps {P : σ → Prop} (each : ∀ s command, P s → P (Surface.apply s command))
    {surface : σ} (h : P surface) (commands : List Command) : P (applyAll surface commands) := by
  induction commands generalizing surface with
  | nil => exact h
  | cons command rest ih => exact ih (each surface command h)

namespace Renderer

/-- A renderer after a turn. -/
def turn (r : Renderer σ) : Turn → Renderer σ
  | .render path => r.render path
  | .clear => r.clear
  | .setSpeed speed => r.setSpeed speed
  | .tell command => r.tell command

/-- A renderer after several turns. -/
def after (r : Renderer σ) (turns : List Turn) : Renderer σ := turns.foldl turn r

/-- What is said to the surface in a turn. -/
def said (r : Renderer σ) : Turn → List Command
  | .render path => pathCommands r.speed r.dotSize path
  | .clear => [.clear]
  | .setSpeed _ => []
  | .tell command => [command]

/-- What a turn does to a surface is what is said in it. -/
theorem surface_turn (r : Renderer σ) (turn : Turn) :
    (r.turn turn).surface = applyAll r.surface (r.said turn) := by
  cases turn <;> rfl

/-- No turn changes the size of dots. -/
theorem dotSize_turn (r : Renderer σ) (turn : Turn) : (r.turn turn).dotSize = r.dotSize := by
  cases turn <;> rfl

/-- No turn changes the size of dots. -/
theorem dotSize_after (r : Renderer σ) (turns : List Turn) :
    (r.after turns).dotSize = r.dotSize := by
  induction turns generalizing r with
  | nil => rfl
  | cons turn rest ih => exact (ih (r.turn turn)).trans (r.dotSize_turn turn)

/-- What every command keeps, a session keeps. -/
theorem after_keeps {P : σ → Prop} (each : ∀ s command, P s → P (Surface.apply s command))
    {r : Renderer σ} (h : P r.surface) (turns : List Turn) : P (r.after turns).surface := by
  induction turns generalizing r with
  | nil => exact h
  | cons turn rest ih =>
      have next : P (r.turn turn).surface := by
        rw [surface_turn]
        exact applyAll_keeps each h _
      exact ih next

end Renderer

end PenDrawing
