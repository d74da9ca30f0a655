import PenDrawing.Proofs.Path
import PenDrawing.Proofs.Surface.Session
import PenDrawing.Surface.Canvas

/-!
# Drawing a path makes the marks of its strokes

A canvas that a path is drawn on goes from point to point and remembers only where its pen is.  The
marks that it makes are nevertheless those of the strokes of the path, one stroke after another
(`marks_render`): a pen that is up starts the marks of a stroke, a pen that is down goes on with
them (`marks_applyAll`).  So no line joins points that are not neighbours in a stroke.
-/

namespace PenDrawing

/-! ## The marks of strokes -/

/-- Where a point lies in shares of the sides of a surface that shows the whole world. -/
def Point.share (p : Point) : Place := Bounds.program.normalize p.toWorld

/-- The marks of a stroke behind a point of it: for each further point a line and a dot. -/
def trail (dotSize : Float32) (last : Point) : List Point → List Mark
  | [] => []
  | p :: rest => .line last.share p.share :: .dot p.share dotSize :: trail dotSize p rest

/-- The marks of a stroke: a dot at its first point, and a line and a dot for each further one. -/
def strokeMarks (dotSize : Float32) : List Point → List Mark
  | [] => []
  | first :: rest => .dot first.share dotSize :: trail dotSize first rest

/-- Every further point of a stroke makes two marks, a line and a dot. -/
theorem length_trail (dotSize : Float32) (last : Point) (ps : List Point) :
    (trail dotSize last ps).length = 2 * ps.length := by
  induction ps generalizing last with
  | nil => rfl
  | cons p rest ih =>
      rw [trail, List.length_cons, List.length_cons, ih, List.length_cons]
      omega

/-- A stroke makes a dot for each point and a line between neighbours. -/
theorem length_strokeMarks (dotSize : Float32) {stroke : List Point} (h : stroke ≠ []) :
    (strokeMarks dotSize stroke).length + 1 = 2 * stroke.length := by
  obtain ⟨first, rest, rfl⟩ := List.exists_cons_of_ne_nil h
  rw [strokeMarks, List.length_cons, length_trail, List.length_cons]
  omega

/-- Strokes have two marks for each point, less one for each stroke. -/
theorem length_flatMap_strokeMarks (dotSize : Float32) {strokes : List (List Point)}
    (h : ∀ s ∈ strokes, s ≠ []) :
    (strokes.flatMap (strokeMarks dotSize)).length + strokes.length =
      2 * strokes.flatten.length := by
  induction strokes with
  | nil => rfl
  | cons stroke rest ih =>
      have first := length_strokeMarks dotSize (h stroke List.mem_cons_self)
      have later := ih fun s hs => h s (List.mem_cons_of_mem stroke hs)
      rw [List.flatMap_cons, List.length_append, List.length_cons, List.flatten_cons,
        List.length_append]
      omega

variable {dotSize : Float32}

/-- The ends of a line are neighbours. -/
theorem exists_of_line_mem_trail {start finish : Place} {last : Point} {ps : List Point}
    (h : Mark.line start finish ∈ trail dotSize last ps) :
    ∃ p q, [p, q] <:+: last :: ps ∧ start = p.share ∧ finish = q.share := by
  induction ps generalizing last with
  | nil => cases h
  | cons p rest ih =>
      rw [trail, List.mem_cons, List.mem_cons] at h
      rcases h with same | other | later
      · obtain ⟨rfl, rfl⟩ := Mark.line.inj same
        exact ⟨last, p, ⟨[], rest, rfl⟩, rfl, rfl⟩
      · cases other
      · obtain ⟨q, q', neighbours, ends⟩ := ih later
        exact ⟨q, q', neighbours.trans (List.suffix_cons last _).isInfix, ends⟩

/-- Every line of a stroke joins two neighbours. -/
theorem exists_of_line_mem_strokeMarks {start finish : Place} {stroke : List Point}
    (h : Mark.line start finish ∈ strokeMarks dotSize stroke) :
    ∃ p q, [p, q] <:+: stroke ∧ start = p.share ∧ finish = q.share := by
  cases stroke with
  | nil => cases h
  | cons first rest =>
      rw [strokeMarks, List.mem_cons] at h
      rcases h with other | later
      · cases other
      · exact exists_of_line_mem_trail later

/-! ## From point to point -/

namespace Canvas

/-- A pen-up point lifts the pen. -/
theorem applyAll_penUp {p : Point} (h : p.isPenUp = true) (c : Canvas) :
    applyAll c (pointCommands dotSize p) = { c with pen := none } := by
  rw [pointCommands, Point.penState, if_pos h]
  rfl

/-- A point where the pen is down moves it and makes a dot. -/
theorem applyAll_penDown {p : Point} (h : p.isPenUp = false) (c : Canvas) :
    applyAll c (pointCommands dotSize p) = (c.moveTo p.toWorld).dot dotSize := by
  rw [pointCommands, Point.penState, if_neg (by rw [h]; decide)]
  rfl

/-- A drawn point makes a dot where the pen was up. -/
theorem moveTo_dot_of_none {c : Canvas} (whole : c.bounds = .program) (up : c.pen = none)
    (p : Point) :
    (c.moveTo p.toWorld).dot dotSize =
      { c with marks := c.marks.push (.dot p.share dotSize), pen := some p.share } := by
  obtain ⟨marks, revealed, speed, bounds, pen, style, banked, closed⟩ := c
  cases whole
  cases up
  rfl

/-- A drawn point makes a line and a dot where the pen was down. -/
theorem moveTo_dot_of_some {c : Canvas} {start : Place} (whole : c.bounds = .program)
    (down : c.pen = some start) (p : Point) :
    (c.moveTo p.toWorld).dot dotSize =
      { c with
        marks := (c.marks.push (.line start p.share)).push (.dot p.share dotSize)
        pen := some p.share } := by
  obtain ⟨marks, revealed, speed, bounds, pen, style, banked, closed⟩ := c
  cases whole
  cases down
  rfl

/-- **From point to point**: a canvas whose pen is up makes the marks of the strokes of the points,
and one whose pen is down at a point goes on with the marks of a stroke first. -/
theorem marks_applyAll (ps : List Point) :
    (∀ c : Canvas, c.bounds = .program → c.pen = none →
      (applyAll c (ps.flatMap (pointCommands dotSize))).marks.toList =
        c.marks.toList ++ (Path.strokesOf ps).flatMap (strokeMarks dotSize)) ∧
    ∀ (c : Canvas) (last : Point), c.bounds = .program → c.pen = some last.share →
      (applyAll c (ps.flatMap (pointCommands dotSize))).marks.toList =
        c.marks.toList ++ (trail dotSize last (ps.takeWhile (!·.isPenUp)) ++
          (Path.strokesOf (ps.dropWhile (!·.isPenUp))).flatMap (strokeMarks dotSize)) := by
  induction ps with
  | nil =>
      constructor
      · intro c _ _
        rw [Path.strokesOf_nil]
        exact (List.append_nil _).symm
      · intro c last _ _
        rw [List.dropWhile_nil, Path.strokesOf_nil]
        exact (List.append_nil _).symm
  | cons p rest ih =>
      obtain ⟨fromUp, fromDown⟩ := ih
      cases state : p.isPenUp with
      | true =>
          constructor
          · intro c whole _
            rw [List.flatMap_cons, applyAll_append, applyAll_penUp state,
              Path.strokesOf_penUp rest state]
            exact fromUp _ whole rfl
          · intro c last whole _
            rw [List.flatMap_cons, applyAll_append, applyAll_penUp state,
              List.takeWhile_cons_of_neg (by rw [state]; decide),
              List.dropWhile_cons_of_neg (by rw [state]; decide), Path.strokesOf_penUp rest state]
            exact fromUp _ whole rfl
      | false =>
          constructor
          · intro c whole up
            rw [List.flatMap_cons, applyAll_append, applyAll_penDown state,
              moveTo_dot_of_none whole up, Path.strokesOf_penDown rest state, fromDown _ p]
            · rw [Array.toList_push, List.append_assoc]
              rfl
            · exact whole
            · rfl
          · intro c last whole down
            rw [List.flatMap_cons, applyAll_append, applyAll_penDown state,
              moveTo_dot_of_some whole down, List.takeWhile_cons_of_pos (by rw [state]; rfl),
              List.dropWhile_cons_of_pos (by rw [state]; rfl), fromDown _ p]
            · rw [Array.toList_push, Array.toList_push, List.append_assoc, List.append_assoc]
              rfl
            · exact whole
            · rfl

end Canvas

/-! ## Whole paths -/

/-- A renderer adds the marks of the strokes of a path. -/
theorem toList_marks_render (r : Renderer Canvas) (path : Path) :
    (r.render path).surface.marks.toList =
      r.surface.marks.toList ++ path.strokes.flatMap (strokeMarks r.dotSize) := by
  cases empty : path.isEmpty with
  | true =>
      have none : path.points = [] := List.isEmpty_iff.mp empty
      rw [r.render_of_isEmpty empty, Path.strokes, none, Path.strokesOf_nil]
      exact (List.append_nil _).symm
  | false =>
      show (applyAll r.surface (pathCommands r.speed r.dotSize path)).marks.toList = _
      rw [pathCommands_of_points empty]
      -- showing the whole world lifts the pen
      exact (Canvas.marks_applyAll path.points).1
        { r.surface with speed := r.speed, bounds := .program, pen := none } rfl rfl

/-- **The marks of a path are those of its strokes.**  Whatever state a canvas is in, drawing a path
adds for each stroke of it a dot at its first point, and a line and a dot for each further point,
and nothing else.  So there are two new marks for each drawn point, less one for each stroke, and a
new line joins two points that are neighbours in a stroke. -/
theorem marks_render (r : Renderer Canvas) (path : Path) :
    (r.render path).surface.marks.toList =
      r.surface.marks.toList ++ path.strokes.flatMap (strokeMarks r.dotSize) ∧
    (r.render path).surface.marks.size + path.strokes.length =
      r.surface.marks.size + 2 * path.points.countP (·.penState = .down) ∧
    ∀ start finish,
      Mark.line start finish ∈ path.strokes.flatMap (strokeMarks r.dotSize) →
        ∃ stroke ∈ path.strokes, ∃ p q, [p, q] <:+: stroke ∧
          start = p.share ∧ finish = q.share := by
  have added := toList_marks_render r path
  refine ⟨added, ?_, ?_⟩
  · have counted := length_flatMap_strokeMarks r.dotSize
      (Path.ne_nil_of_mem_strokesOf path.points)
    have drawn : (Path.strokesOf path.points).flatten.length =
        path.points.countP (·.penState = .down) := by
      rw [Path.flatten_strokesOf, ← List.countP_eq_length_filter]
      refine List.countP_congr ?_
      intro p _
      cases state : p.isPenUp <;> simp [Point.penState, state]
    have sized := congrArg List.length added
    rw [List.length_append, Array.length_toList, Array.length_toList] at sized
    rw [drawn] at counted
    simp only [Path.strokes] at sized ⊢
    omega
  · intro start finish h
    obtain ⟨stroke, mem, line⟩ := List.mem_flatMap.mp h
    exact ⟨stroke, mem, exists_of_line_mem_strokeMarks line⟩

end PenDrawing
