import PenDrawing.Path
import PenDrawing.Proofs.Text.Run
import Mathlib.Tactic.Common

/-!
# Strokes are all that is drawn

The strokes of a path hold its drawn points, each once and in their order (`flatten_strokesOf`), and
no stroke is empty (`ne_nil_of_mem_strokesOf`).  They are the maximal runs of drawn points
(`strokesOf_eq_runs`), so drawings behind one another keep their strokes where the pen is lifted
between them (`strokesOf_append`).
-/

namespace PenDrawing.Path

/-- No stroke is empty: it begins with the point that opened it. -/
theorem ne_nil_of_mem_strokesOf (ps : List Point) : ∀ stroke ∈ strokesOf ps, stroke ≠ [] := by
  induction ps using strokesOf.induct with
  | case1 =>
      intro stroke h
      rw [strokesOf_nil] at h
      cases h
  | case2 p rest up ih =>
      intro stroke h
      rw [strokesOf_penUp rest up] at h
      exact ih stroke h
  | case3 p rest down ih =>
      intro stroke h
      rw [strokesOf_penDown rest (eq_false_of_ne_true down)] at h
      rcases List.mem_cons.mp h with rfl | later
      · exact List.cons_ne_nil _ _
      · exact ih stroke later

/-- The points of a run are drawn. -/
theorem filter_takeWhile_penDown (ps : List Point) :
    (ps.takeWhile (!·.isPenUp)).filter (!·.isPenUp) = ps.takeWhile (!·.isPenUp) := by
  rw [List.filter_eq_self]
  intro p hp
  exact List.all_eq_true.mp List.all_takeWhile p hp

/-- The strokes hold the drawn points in their order. -/
theorem flatten_strokesOf (ps : List Point) :
    (strokesOf ps).flatten = ps.filter (!·.isPenUp) := by
  induction ps using strokesOf.induct with
  | case1 => rw [strokesOf_nil]; rfl
  | case2 p rest up ih =>
      rw [strokesOf_penUp rest up, ih, List.filter_cons_of_neg (by rw [up]; decide)]
  | case3 p rest down ih =>
      have down := eq_false_of_ne_true down
      -- the run of the stroke, and what follows it
      have split : rest.filter (!·.isPenUp) = rest.takeWhile (!·.isPenUp) ++
          (rest.dropWhile (!·.isPenUp)).filter (!·.isPenUp) := by
        rw [← filter_takeWhile_penDown, ← List.filter_append, List.takeWhile_append_dropWhile]
      rw [strokesOf_penDown rest down, List.flatten_cons, ih,
        List.filter_cons_of_pos (by rw [down]; rfl), split, List.cons_append]

/-! ## Strokes as runs -/

/-- The strokes are the maximal runs of drawn points. -/
theorem strokesOf_eq_runs (ps : List Point) : strokesOf ps = Text.runs (!·.isPenUp) ps := by
  induction ps using strokesOf.induct with
  | case1 => rw [strokesOf_nil]; rfl
  | case2 p rest up ih =>
      rw [strokesOf_penUp rest up, ih, Text.runs_cons rest (by rw [up]; rfl)]
  | case3 p rest down ih =>
      have down := eq_false_of_ne_true down
      rw [strokesOf_penDown rest down, ih]
      -- the run that the point opens, and the pen-up point that ends it if there is one
      have run : ∀ q ∈ p :: rest.takeWhile (!·.isPenUp), (!q.isPenUp) = true := by
        intro q hq
        rcases List.mem_cons.mp hq with rfl | inside
        · rw [down]
          rfl
        · exact List.mem_takeWhile_imp (p := fun q : Point => !q.isPenUp) inside
      have only := Text.runs_of_forall (p := fun q : Point => !q.isPenUp)
        (List.cons_ne_nil p _) run
      have stop := Text.stops_dropWhile (fun q : Point => !q.isPenUp) rest
      have parts : p :: rest = (p :: rest.takeWhile (!·.isPenUp)) ++
          rest.dropWhile (!·.isPenUp) := by
        rw [List.cons_append, List.takeWhile_append_dropWhile]
      rw [parts]
      cases behind : rest.dropWhile (!·.isPenUp) with
      | nil =>
          rw [List.append_nil, only]
          rfl
      | cons q later =>
          rw [behind] at stop
          have ends : (!q.isPenUp) = false := stop q rfl
          rw [Text.runs_append_cons _ later ends, only, Text.runs_cons later ends]
          rfl

/-- A drawing at whose end the pen is lifted is not joined to what follows it. -/
theorem strokesOf_append {front : List Point} (lifted : ∀ p ∈ front.getLast?, p.isPenUp = true)
    (back : List Point) : strokesOf (front ++ back) = strokesOf front ++ strokesOf back := by
  rcases List.eq_nil_or_concat front with rfl | ⟨before, p, rfl⟩
  · rw [strokesOf_nil]
    rfl
  · rw [List.concat_eq_append] at lifted ⊢
    have up : (!p.isPenUp) = false := by
      rw [lifted p List.getLast?_concat]
      rfl
    rw [strokesOf_eq_runs, strokesOf_eq_runs, strokesOf_eq_runs, List.append_assoc,
      List.singleton_append, Text.runs_append_cons before back up, Text.runs_concat before up]

end PenDrawing.Path
