import PenDrawing.Proofs.Surface.Replay
import PenDrawing.Proofs.Surface.Session

/-!
# A cleared surface draws as a new one

Clearing leaves of a picture its size, its style and a raster of blank paper (`Picture.Clean`), and
drawing a path begins by showing the whole world, which also lifts the pen.  What else there was
does not matter to the raster (`Picture.Clean.raster_applyAll`).

A canvas also counts the marks that are shown and keeps time for more.  Clearing takes both back,
and all that is left of what was before does not matter to its marks (`Canvas.alike_clear_render`).
-/

namespace PenDrawing

/-! ## Pictures -/

namespace Picture

/-- Two pictures that are drawn on alike: they may differ only in whether the session has ended. -/
structure Alike (p q : Picture) : Prop where
  raster : p.raster = q.raster
  style : p.style = q.style
  bounds : p.bounds = q.bounds
  pen : p.pen = q.pen

variable {p q : Picture} {width height : Nat} {style : Style}

/-- The same move draws the same line on pictures that are alike, or none on both. -/
theorem Alike.moveTo (h : Alike p q) (place : Place) :
    Alike (Surface.apply p (.moveTo place)) (Surface.apply q (.moveTo place)) := by
  have target : q.toPixel place = p.toPixel place := by
    rw [toPixel, toPixel, h.raster, h.bounds]
  cases pen : p.pen with
  | none =>
      have up : q.pen = none := h.pen.symm.trans pen
      rw [apply_eq_of_step (step_moveTo_of_up pen place),
        apply_eq_of_step (step_moveTo_of_up up place), target]
      exact ⟨h.raster, h.style, h.bounds, rfl⟩
  | some start =>
      have down : q.pen = some start := h.pen.symm.trans pen
      obtain ⟨raster, drawn, -⟩ := p.raster.exists_line p.style.ink.pixel p.style.penSize start
        (p.toPixel place)
      have same : q.raster.line q.style.ink.pixel q.style.penSize start (q.toPixel place) =
          .ok raster := by
        rw [← h.raster, ← h.style, target]
        exact drawn
      rw [apply_eq_of_step (step_moveTo_of_down pen drawn),
        apply_eq_of_step (step_moveTo_of_down down same), target]
      exact ⟨rfl, h.style, h.bounds, rfl⟩

/-- The same dot is drawn on pictures that are alike, or none on both. -/
theorem Alike.dot (h : Alike p q) (size : Float32) :
    Alike (Surface.apply p (.dot size)) (Surface.apply q (.dot size)) := by
  cases pen : p.pen with
  | none =>
      have up : q.pen = none := h.pen.symm.trans pen
      rw [apply_eq_of_step (step_dot_of_up pen size), apply_eq_of_step (step_dot_of_up up size)]
      exact h
  | some center =>
      have down : q.pen = some center := h.pen.symm.trans pen
      obtain ⟨raster, drawn, -⟩ := p.raster.exists_stamp p.style.ink.pixel (.around center size)
      have same : q.raster.stamp q.style.ink.pixel (.around center size) = .ok raster := by
        rw [← h.raster, ← h.style]
        exact drawn
      rw [apply_eq_of_step (step_dot_of_down pen drawn),
        apply_eq_of_step (step_dot_of_down down same)]
      exact ⟨rfl, h.style, h.bounds, h.pen⟩

/-- Every command keeps two pictures alike. -/
theorem Alike.apply (h : Alike p q) (command : Command) :
    Alike (Surface.apply p command) (Surface.apply q command) := by
  cases command with
  | setSpeed speed => exact h
  | setWorld bounds => exact ⟨h.raster, h.style, rfl, rfl⟩
  | penUp => exact ⟨h.raster, h.style, h.bounds, rfl⟩
  | moveTo place => exact h.moveTo place
  | dot size => exact h.dot size
  | clear =>
      have blank : p.raster.fill p.style.paper.pixel = q.raster.fill q.style.paper.pixel := by
        rw [h.raster, h.style]
      exact ⟨blank, h.style, h.bounds, rfl⟩
  | close => exact ⟨h.raster, h.style, h.bounds, h.pen⟩

/-- Any commands keep two pictures alike. -/
theorem Alike.applyAll (h : Alike p q) (commands : List Command) :
    Alike (applyAll p commands) (applyAll q commands) := by
  induction commands generalizing p q with
  | nil => exact h
  | cons command rest ih => exact ih (h.apply command)

/-- A picture of a size and a style. -/
structure Framed (width height : Nat) (style : Style) (p : Picture) : Prop where
  width : p.raster.width = width
  height : p.raster.height = height
  style : p.style = style

theorem framed_blank (width height : Nat) (style : Style) :
    Framed width height style (blank width height style) := ⟨rfl, rfl, rfl⟩

/-- No command changes the size or the style. -/
theorem Framed.apply (h : Framed width height style p) (command : Command) :
    Framed width height style (Surface.apply p command) := by
  cases command with
  | setSpeed speed => exact h
  | setWorld bounds => exact ⟨h.width, h.height, h.style⟩
  | penUp => exact ⟨h.width, h.height, h.style⟩
  | moveTo place =>
      obtain ⟨raster, same, done⟩ := p.exists_step_moveTo place
      rw [Picture.apply_eq_of_step done]
      exact ⟨same.width.trans h.width, same.height.trans h.height, h.style⟩
  | dot size =>
      obtain ⟨raster, same, done⟩ := p.exists_step_dot size
      rw [Picture.apply_eq_of_step done]
      exact ⟨same.width.trans h.width, same.height.trans h.height, h.style⟩
  | clear => exact ⟨h.width, h.height, h.style⟩
  | close => exact ⟨h.width, h.height, h.style⟩

/-- No commands change the size or the style. -/
theorem Framed.applyAll (h : Framed width height style p) (commands : List Command) :
    Framed width height style (PenDrawing.applyAll p commands) :=
  applyAll_keeps (P := Framed width height style) (fun _ command framed => framed.apply command) h
    commands

/-- A picture without marks, wherever its pen is and whatever it shows. -/
structure Clean (width height : Nat) (style : Style) (p : Picture) : Prop where
  raster : p.raster = .blank width height style.paper.pixel
  style : p.style = style

theorem clean_blank (width height : Nat) (style : Style) :
    Clean width height style (blank width height style) := ⟨rfl, rfl⟩

theorem Clean.framed (h : Clean width height style p) : Framed width height style p :=
  ⟨by rw [h.raster]; rfl, by rw [h.raster]; rfl, h.style⟩

/-- Clearing takes all marks away. -/
theorem Framed.clean_clear (h : Framed width height style p) :
    Clean width height style (Surface.apply p .clear) := by
  refine ⟨?_, h.style⟩
  show p.raster.fill p.style.paper.pixel = _
  rw [Raster.fill, h.width, h.height, h.style]

/-- On a picture without marks a path is drawn as on a new one. -/
theorem Clean.raster_applyAll (h : Clean width height style p) (speed speed' : Speed)
    (dotSize : Float32) (path : Path) :
    (PenDrawing.applyAll p (pathCommands speed dotSize path)).raster =
      (PenDrawing.applyAll (blank width height style)
        (pathCommands speed' dotSize path)).raster := by
  cases empty : path.isEmpty with
  | true =>
      rw [pathCommands_of_isEmpty empty, pathCommands_of_isEmpty empty]
      exact h.raster
  | false =>
      rw [pathCommands_of_points empty, pathCommands_of_points empty]
      -- showing the whole world lifts both pens
      have head : Alike (Surface.apply (Surface.apply p (.setSpeed speed)) (.setWorld .program))
          (blank width height style) := ⟨h.raster, h.style, rfl, rfl⟩
      exact (head.applyAll _).raster

end Picture

/-! ## Canvases -/

namespace Canvas

/-- Two canvases that are drawn on alike: they may differ only in their style, and in whether the
session has ended. -/
structure Alike (c d : Canvas) : Prop where
  marks : c.marks = d.marks
  revealed : c.revealed = d.revealed
  speed : c.speed = d.speed
  bounds : c.bounds = d.bounds
  pen : c.pen = d.pen
  banked : c.banked = d.banked

variable {c d : Canvas}

/-- The same move adds the same line to canvases that are alike, or none to both. -/
theorem Alike.moveTo (h : Alike c d) (place : Place) : Alike (c.moveTo place) (d.moveTo place) := by
  obtain ⟨marks, revealed, speed, bounds, pen, style, banked, closed⟩ := c
  obtain ⟨marks', revealed', speed', bounds', pen', style', banked', closed'⟩ := d
  obtain ⟨rfl, rfl, rfl, rfl, rfl, rfl⟩ := h
  cases pen with
  | none => exact ⟨rfl, rfl, rfl, rfl, rfl, rfl⟩
  | some start => exact ⟨rfl, rfl, rfl, rfl, rfl, rfl⟩

/-- The same dot is added to canvases that are alike, or none to both. -/
theorem Alike.dot (h : Alike c d) (size : Float32) : Alike (c.dot size) (d.dot size) := by
  obtain ⟨marks, revealed, speed, bounds, pen, style, banked, closed⟩ := c
  obtain ⟨marks', revealed', speed', bounds', pen', style', banked', closed'⟩ := d
  obtain ⟨rfl, rfl, rfl, rfl, rfl, rfl⟩ := h
  cases pen with
  | none => exact ⟨rfl, rfl, rfl, rfl, rfl, rfl⟩
  | some center => exact ⟨rfl, rfl, rfl, rfl, rfl, rfl⟩

/-- Every command keeps two canvases alike. -/
theorem Alike.apply (h : Alike c d) (command : Command) :
    Alike (Surface.apply c command) (Surface.apply d command) := by
  cases command with
  | setSpeed speed => exact ⟨h.marks, h.revealed, rfl, h.bounds, h.pen, h.banked⟩
  | setWorld bounds => exact ⟨h.marks, h.revealed, h.speed, rfl, rfl, h.banked⟩
  | penUp => exact ⟨h.marks, h.revealed, h.speed, h.bounds, rfl, h.banked⟩
  | moveTo place => exact h.moveTo place
  | dot size => exact h.dot size
  | clear => exact ⟨rfl, rfl, h.speed, h.bounds, rfl, rfl⟩
  | close => exact ⟨h.marks, h.revealed, h.speed, h.bounds, h.pen, h.banked⟩

/-- Any commands keep two canvases alike. -/
theorem Alike.applyAll (h : Alike c d) (commands : List Command) :
    Alike (applyAll c commands) (applyAll d commands) := by
  induction commands generalizing c d with
  | nil => exact h
  | cons command rest ih => exact ih (h.apply command)

/-- No mark is shown, and no time is kept. -/
def Waits (c : Canvas) : Prop := c.revealed = 0 ∧ c.banked = .zero

/-- No command shows marks or keeps time: that takes time to pass. -/
theorem Waits.apply (h : Waits c) (command : Command) : Waits (Surface.apply c command) := by
  cases command with
  | setSpeed speed => exact h
  | setWorld bounds => exact h
  | penUp => exact h
  | moveTo place =>
      show Waits (c.moveTo place)
      rw [Canvas.moveTo]
      cases c.pen <;> exact h
  | dot size =>
      show Waits (c.dot size)
      rw [Canvas.dot]
      cases c.pen <;> exact h
  | clear => exact ⟨rfl, rfl⟩
  | close => exact h

/-- A path is drawn on a cleared canvas as on a new one. -/
theorem alike_clear_render (r : Renderer Canvas) (style : Style) {path : Path}
    (h : path.isEmpty = false) :
    Alike (r.clear.render path).surface
      (Renderer.render ⟨blank style, r.speed, r.dotSize⟩ path).surface := by
  show Alike (PenDrawing.applyAll (Surface.apply r.surface .clear)
      (pathCommands r.speed r.dotSize path))
    (PenDrawing.applyAll (blank style) (pathCommands r.speed r.dotSize path))
  rw [pathCommands_of_points h]
  have head : Alike
      (PenDrawing.applyAll r.surface [.clear, .setSpeed r.speed, .setWorld .program])
      (PenDrawing.applyAll (blank style) [.setSpeed r.speed, .setWorld .program]) :=
    ⟨rfl, rfl, rfl, rfl, rfl, rfl⟩
  exact head.applyAll _

/-- A path that is drawn waits to be shown. -/
theorem waits_render (style : Style) (speed : Speed) (dotSize : Float32) (path : Path) :
    Waits (Renderer.render ⟨blank style, speed, dotSize⟩ path).surface := by
  have new : Waits (blank style) := ⟨rfl, rfl⟩
  exact applyAll_keeps (P := Waits) (fun _ command h => h.apply command) new _

end Canvas

end PenDrawing
