import PenDrawing.Proofs.Surface.Ink
import PenDrawing.Proofs.Surface.Reuse
import PenDrawing.Proofs.Surface.Strokes

/-!
# The order of drawing does not matter to a picture

Ink covers ink, and what a path inks is settled by its strokes.  The route:

* every command but clearing inks some cells and leaves all others (`Picture.Painted.apply`), so ink
  stays until the picture is cleared (`Picture.Painted.inked`);
* drawing a path inks the cells of its strokes, whatever is on the picture and wherever its pen is
  (`raster_render`);
* so only the set of all cells counts, not which path or which stroke comes first, or comes twice
  (`raster_order_free`).
-/

namespace PenDrawing

/-! ## Ink stays -/

namespace Picture

/-- A picture comes from another one by inking some cells; the style is the same. -/
structure Painted (p q : Picture) : Prop where
  raster : ∃ cells, q.raster = p.raster.paint p.style.ink.pixel cells
  style : q.style = p.style

/-- Without a change to the raster no cell is inked. -/
theorem Painted.of_eq {p q : Picture} (raster : q.raster = p.raster) (style : q.style = p.style) :
    Painted p q :=
  ⟨⟨[], by rw [raster, Raster.paint_nil]⟩, style⟩

theorem Painted.trans {p q s : Picture} (first : Painted p q) (second : Painted q s) :
    Painted p s := by
  obtain ⟨⟨cells, inked⟩, style⟩ := first
  obtain ⟨⟨cells', inked'⟩, style'⟩ := second
  refine ⟨⟨cells ++ cells', ?_⟩, style'.trans style⟩
  rw [inked', inked, style, Raster.paint_append]

/-- Every command but clearing inks some cells. -/
theorem Painted.apply (p : Picture) {command : Command} (keeps : command ≠ .clear) :
    Painted p (Surface.apply p command) := by
  cases command with
  | setSpeed speed => exact .of_eq rfl rfl
  | setWorld bounds => exact .of_eq rfl rfl
  | penUp => exact .of_eq rfl rfl
  | moveTo place =>
      cases pen : p.pen with
      | none =>
          rw [apply_eq_of_step (step_moveTo_of_up pen place)]
          exact .of_eq rfl rfl
      | some start =>
          have drawn := p.raster.line_eq_paint p.style.ink.pixel p.style.penSize start
            (p.toPixel place)
          rw [apply_eq_of_step (step_moveTo_of_down pen drawn)]
          exact ⟨⟨_, rfl⟩, rfl⟩
  | dot size =>
      cases pen : p.pen with
      | none =>
          rw [apply_eq_of_step (step_dot_of_up pen size)]
          exact .of_eq rfl rfl
      | some center =>
          have drawn := p.raster.stamp_eq_paint p.style.ink.pixel (.around center size)
          rw [apply_eq_of_step (step_dot_of_down pen drawn)]
          exact ⟨⟨_, rfl⟩, rfl⟩
  | clear => exact absurd rfl keeps
  | close => exact .of_eq rfl rfl

/-- Commands among which none clears ink some cells. -/
theorem Painted.applyAll (p : Picture) {commands : List Command}
    (keeps : Command.clear ∉ commands) : Painted p (applyAll p commands) := by
  induction commands generalizing p with
  | nil => exact .of_eq rfl rfl
  | cons command rest ih =>
      have first : command ≠ .clear := fun same => keeps (same ▸ List.mem_cons_self)
      have later : Command.clear ∉ rest := fun mem => keeps (List.mem_cons_of_mem command mem)
      exact (Painted.apply p first).trans (ih _ later)

/-- The pixel at a place is ink. -/
def Inked (p : Picture) (x y : Nat) : Prop := p.raster.get? x y = some p.style.ink.pixel

instance (p : Picture) (x y : Nat) : Decidable (p.Inked x y) :=
  inferInstanceAs (Decidable (p.raster.get? x y = some p.style.ink.pixel))

/-- Ink is not taken away by inking. -/
theorem Painted.inked {p q : Picture} (h : Painted p q) {x y : Nat} (ink : p.Inked x y) :
    q.Inked x y := by
  obtain ⟨⟨cells, inked⟩, style⟩ := h
  rw [Inked] at ink
  rw [Inked, inked, style, Raster.get?_paint, ink]
  exact ite_self _

end Picture

/-- A turn that takes all marks away. -/
def Turn.Clears (turn : Turn) : Prop := turn = .clear ∨ turn = .tell .clear

/-- Nothing is cleared away for the points of a path. -/
theorem clear_not_mem_points (dotSize : Float32) (ps : List Point) :
    Command.clear ∉ ps.flatMap (pointCommands dotSize) := by
  intro h
  obtain ⟨p, -, said⟩ := List.mem_flatMap.mp h
  rw [pointCommands] at said
  cases state : p.penState with
  | up =>
      rw [state] at said
      cases List.mem_singleton.mp said
  | down =>
      rw [state] at said
      simp only [List.mem_cons, List.not_mem_nil, reduceCtorEq, or_self] at said

/-- Nothing is cleared away for a path. -/
theorem clear_not_mem_pathCommands (speed : Speed) (dotSize : Float32) (path : Path) :
    Command.clear ∉ pathCommands speed dotSize path := by
  cases empty : path.isEmpty with
  | true =>
      rw [pathCommands_of_isEmpty empty]
      exact List.not_mem_nil
  | false =>
      rw [pathCommands_of_points empty]
      simp only [List.mem_cons, reduceCtorEq, false_or]
      exact clear_not_mem_points dotSize path.points

/-- A turn that does not clear inks some cells. -/
theorem painted_turn (r : Renderer Picture) {turn : Turn} (keeps : ¬ turn.Clears) :
    Picture.Painted r.surface (r.turn turn).surface := by
  rw [Renderer.surface_turn]
  refine .applyAll r.surface ?_
  cases turn with
  | render path => exact clear_not_mem_pathCommands r.speed r.dotSize path
  | clear => exact absurd (.inl rfl) keeps
  | setSpeed speed => exact List.not_mem_nil
  | tell command =>
      intro same
      exact keeps (.inr (congrArg Turn.tell (List.mem_singleton.mp same).symm))

/-- Turns among which none clears ink some cells. -/
theorem painted_after (r : Renderer Picture) {turns : List Turn}
    (keeps : ∀ turn ∈ turns, ¬ turn.Clears) :
    Picture.Painted r.surface (r.after turns).surface := by
  induction turns generalizing r with
  | nil => exact .of_eq rfl rfl
  | cons turn rest ih =>
      have first := painted_turn r (keeps turn List.mem_cons_self)
      exact first.trans
        (ih (r.turn turn) fun later mem => keeps later (List.mem_cons_of_mem turn mem))

/-! ## What a path inks -/

/-- The cells of a path on a raster of a size: those of the marks of its strokes. -/
def Path.cells (width height : Nat) (style : Style) (dotSize : Float32) (path : Path) :
    List (Nat × Nat) :=
  (path.strokes.flatMap (strokeMarks dotSize)).flatMap (Mark.cells width height style)

variable {width height : Nat} {style : Style}

/-- Drawing a path changes neither the size nor the style. -/
theorem framed_render {r : Renderer Picture} (h : Picture.Framed width height style r.surface)
    (path : Path) : Picture.Framed width height style (r.render path).surface :=
  h.applyAll _

/-- **A path inks the cells of its strokes**, whatever is on the picture already. -/
theorem raster_render {r : Renderer Picture} (h : Picture.Framed width height style r.surface)
    (path : Path) :
    (r.render path).surface.raster =
      r.surface.raster.paint style.ink.pixel (path.cells width height style r.dotSize) := by
  cases empty : path.isEmpty with
  | true =>
      have none : path.points = [] := List.isEmpty_iff.mp empty
      rw [r.render_of_isEmpty empty, Path.cells, Path.strokes, none, Path.strokesOf_nil]
      exact (r.surface.raster.paint_nil _).symm
  | false =>
      show (applyAll r.surface (pathCommands r.speed r.dotSize path)).raster = _
      rw [pathCommands_of_points empty]
      -- showing the whole world lifts the pen, so a canvas without marks is in step from here on
      have begun : ShowsOver r.surface.raster style
          { r.surface with bounds := .program, pen := none } (.blank style) :=
        ⟨h.style, rfl, rfl, rfl⟩
      have drawn := (begun.applyAll (clear_not_mem_points r.dotSize path.points)).raster
      rw [(Canvas.marks_applyAll path.points).1 (.blank style) rfl rfl, Raster.draw_eq_paint,
        h.width, h.height] at drawn
      exact (Except.ok.inj drawn).symm

/-- Two paths one after the other ink the cells of both. -/
theorem raster_render_render {r : Renderer Picture}
    (h : Picture.Framed width height style r.surface) (p q : Path) :
    ((r.render p).render q).surface.raster =
      r.surface.raster.paint style.ink.pixel
        (p.cells width height style r.dotSize ++ q.cells width height style r.dotSize) := by
  rw [raster_render (framed_render h p) q, raster_render h p, Raster.paint_append]
  rfl

/-- The order of its strokes does not matter to the cells of a path. -/
theorem mem_cells_of_perm {p q : Path} (h : q.strokes.Perm p.strokes) (dotSize : Float32)
    (cell : Nat × Nat) :
    cell ∈ q.cells width height style dotSize ↔ cell ∈ p.cells width height style dotSize :=
  ((h.flatMap_right (strokeMarks dotSize)).flatMap_right (Mark.cells width height style)).mem_iff

/-- **Order does not matter to a picture.**  Two paths may be drawn on a picture in either order,
and drawing one of them again changes nothing; of a path only its strokes count, in any order.  What
is ink stays ink until the picture is cleared, whatever else is done. -/
theorem raster_order_free (r : Renderer Picture) :
    (∀ p q : Path,
      ((r.render p).render q).surface.raster = ((r.render q).render p).surface.raster) ∧
    (∀ p : Path, ((r.render p).render p).surface.raster = (r.render p).surface.raster) ∧
    (∀ p q : Path, q.strokes.Perm p.strokes →
      (r.render q).surface.raster = (r.render p).surface.raster) ∧
    ∀ turns : List Turn, (∀ turn ∈ turns, ¬ turn.Clears) →
      ∀ x y, r.surface.Inked x y → (r.after turns).surface.Inked x y := by
  have framed : Picture.Framed r.surface.raster.width r.surface.raster.height r.surface.style
      r.surface := ⟨rfl, rfl, rfl⟩
  refine ⟨?_, ?_, ?_, ?_⟩
  · intro p q
    rw [raster_render_render framed p q, raster_render_render framed q p]
    refine Raster.paint_congr _ _ fun cell => ?_
    rw [List.mem_append, List.mem_append, or_comm]
  · intro p
    rw [raster_render_render framed p p, raster_render framed p]
    refine Raster.paint_congr _ _ fun cell => ?_
    rw [List.mem_append, or_self]
  · intro p q same
    rw [raster_render framed q, raster_render framed p]
    exact Raster.paint_congr _ _ (mem_cells_of_perm same r.dotSize)
  · intro turns keeps x y ink
    exact (painted_after r keeps).inked ink

/-- Two strokes in either order on blank paper: both ink two corners and leave a third one, and the
first corner stays ink while the other path is drawn. -/
theorem raster_order_free_two_strokes :
    let p : Path := ⟨[⟨1, 1⟩, .penUp, ⟨60000, 60000⟩]⟩
    let q : Path := ⟨[.penUp, ⟨60000, 60000⟩, .penUp, .penUp, ⟨1, 1⟩]⟩
    let r : Renderer Picture := ⟨.blank 4 4 .standard, .fastest, 2⟩
    q.strokes.Perm p.strokes ∧ (r.render q).surface.raster = (r.render p).surface.raster ∧
      ¬ r.surface.Inked 0 0 ∧
      (r.render p).surface.Inked 0 0 ∧ (r.render p).surface.Inked 3 3 ∧
      ¬ (r.render p).surface.Inked 3 0 ∧
      ((r.render p).after [.tell .penUp, .render q]).surface.Inked 0 0 := by
  intro p q r
  have first : p.strokes = [[⟨1, 1⟩], [⟨60000, 60000⟩]] := by cbv
  have second : q.strokes = [[⟨60000, 60000⟩], [⟨1, 1⟩]] := by cbv
  have swapped : q.strokes.Perm p.strokes := by
    rw [first, second]
    exact .swap _ _ []
  have ink : (r.render p).surface.Inked 0 0 := by decide +kernel
  refine ⟨swapped, (raster_order_free r).2.2.1 p q swapped, by decide +kernel, ink,
    by decide +kernel, by decide +kernel, ?_⟩
  refine (raster_order_free (r.render p)).2.2.2 [.tell .penUp, .render q] ?_ 0 0 ink
  intro turn mem
  simp only [List.mem_cons, List.not_mem_nil, or_false] at mem
  rcases mem with rfl | rfl <;> simp [Turn.Clears]

end PenDrawing
