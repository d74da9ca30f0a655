import PenDrawing.Proofs.Path
import Mathlib.Data.List.Forall2

/-!
# Where strokes stand

A drawn point **opens** a stroke if it is the first point of its path or the pen was lifted just
before it.  One after another, the strokes of a path stand where a stroke is opened, each up to
where the pen is lifted or the path ends (`standsAt_openings`).

A path in which the pen is never lifted is one stroke or none (`strokesOf_of_drawn`), and any other
one falls into two drawings with a pen-up point between them, which share no stroke
(`strokesOf_lift`) and in which the places shift by what comes before (`openings_lift`).  Facts
about all paths go by induction along such points (`lift_induction`).
-/

namespace PenDrawing.Path

/-! ## Openings -/

/-- A drawn point opens a stroke if it comes first or behind a pen-up point. -/
def opens (ps : List Point) (place : Nat) : Bool :=
  ps[place]?.any (!·.isPenUp) && (place == 0 || ps[place - 1]?.any (·.isPenUp))

/-- The places of the points that open a stroke, from the first to the last. -/
def openings (ps : List Point) : List Nat := (List.range ps.length).filter (opens ps)

/-- A stroke stands at a place as a whole: it is cut out of its path there, and on either side of it
the path ends or has a pen-up point. -/
def StandsAt (ps : List Point) (place : Nat) (stroke : List Point) : Prop :=
  ∃ before after, ps = before ++ stroke ++ after ∧ before.length = place ∧
    (∀ p ∈ before.getLast?, p = .penUp) ∧ ∀ p ∈ after.head?, p = .penUp

theorem standsAt_whole (ps : List Point) : StandsAt ps 0 ps :=
  ⟨[], [], (List.append_nil _).symm, rfl, (fun _ none => nomatch none), fun _ none => nomatch none⟩

/-- What holds for paths in which the pen is never lifted, and for two drawings with a pen-up point
between them if it holds for both, holds for every path. -/
theorem lift_induction {motive : List Point → Prop}
    (drawn : ∀ ps, .penUp ∉ ps → motive ps)
    (lift : ∀ front back, motive front → motive back → motive (front ++ .penUp :: back))
    (ps : List Point) : motive ps := by
  have clean {run : List Point} (inside : ∀ p ∈ run, (!p.isPenUp) = true) : .penUp ∉ run :=
    fun mem => absurd (inside .penUp mem) (by decide)
  refine Text.run_induction (p := fun q : Point => !q.isPenUp) (motive := motive) ?_ ?_ ps
  · exact fun run inside => drawn run (clean inside)
  · intro run p rest inside up later
    obtain rfl : p = .penUp := (Point.isPenUp_iff p).mp (by simpa using up)
    exact lift run rest (drawn run (clean inside)) later

/-! ## Where the pen is never lifted -/

section

variable {ps : List Point} (drawn : .penUp ∉ ps)

include drawn

theorem isPenUp_of_drawn : ∀ p ∈ ps, p.isPenUp = false := by
  intro p hp
  refine eq_false_of_ne_true fun up => drawn ?_
  rw [← (Point.isPenUp_iff p).mp up]
  exact hp

/-- Points between which the pen is not lifted are one stroke. -/
theorem strokesOf_of_drawn (nonempty : ps ≠ []) : strokesOf ps = [ps] := by
  rw [strokesOf_eq_runs]
  refine Text.runs_of_forall nonempty fun p hp => ?_
  rw [isPenUp_of_drawn drawn p hp]
  rfl

/-- Only the first point opens a stroke. -/
theorem openings_of_drawn (nonempty : ps ≠ []) : openings ps = [0] := by
  obtain ⟨first, rest, rfl⟩ := List.exists_cons_of_ne_nil nonempty
  have here : opens (first :: rest) 0 = true := by
    simp [opens, isPenUp_of_drawn drawn first List.mem_cons_self]
  have later : ∀ place < rest.length, ¬ opens (first :: rest) (place + 1) = true := by
    intro place inside opened
    have within : place < (first :: rest).length := Nat.lt_succ_of_lt inside
    -- the point before it is drawn
    have before := isPenUp_of_drawn drawn _ (List.getElem_mem within)
    simp [opens, List.getElem?_eq_getElem within, before] at opened
  rw [openings, List.length_cons, List.range_succ_eq_map, List.filter_cons_of_pos here,
    List.filter_eq_nil_iff.mpr]
  intro place mem
  obtain ⟨place, inside, rfl⟩ := List.mem_map.mp mem
  exact later place (List.mem_range.mp inside)

end

/-! ## Where the pen is lifted -/

/-- Drawings with a pen-up point between them share no stroke. -/
theorem strokesOf_lift (front back : List Point) :
    strokesOf (front ++ .penUp :: back) = strokesOf front ++ strokesOf back := by
  rw [strokesOf_eq_runs, strokesOf_eq_runs, strokesOf_eq_runs, Text.runs_append_cons]
  rfl

section

variable (front back : List Point)

/-- In front of the pen-up point, strokes are opened as if the path ended there. -/
theorem opens_front {place : Nat} (inside : place < front.length) :
    opens (front ++ .penUp :: back) place = opens front place := by
  rw [opens, opens, List.getElem?_append_left inside,
    List.getElem?_append_left (Nat.lt_of_le_of_lt (Nat.sub_le place 1) inside)]

/-- No stroke opens where the pen is lifted. -/
theorem opens_lift : opens (front ++ .penUp :: back) front.length = false := by
  rw [opens, List.getElem?_append_right (Nat.le_refl _), Nat.sub_self]
  rfl

/-- Behind the pen-up point, strokes are opened as if the path began there. -/
theorem opens_back (place : Nat) :
    opens (front ++ .penUp :: back) (front.length + 1 + place) = opens back place := by
  have shifted : front ++ .penUp :: back = (front ++ [.penUp]) ++ back := by
    rw [List.append_assoc, List.singleton_append]
  have length : front.length + 1 = (front ++ [Point.penUp]).length := by
    rw [List.length_append, List.length_singleton]
  rw [shifted, length, opens, opens, List.getElem?_append_right (Nat.le_add_right _ _),
    Nat.add_sub_cancel_left]
  cases place with
  | zero =>
      -- the point before the first one is the one that lifts the pen
      rw [Nat.add_zero, ← length, Nat.add_sub_cancel, List.append_assoc,
        List.getElem?_append_right (Nat.le_refl _), Nat.sub_self]
      rfl
  | succ place =>
      rw [← Nat.add_assoc, Nat.add_sub_cancel, Nat.add_sub_cancel,
        List.getElem?_append_right (Nat.le_add_right _ _), Nat.add_sub_cancel_left]
      rfl

/-- The places of the second drawing shift by the first one and the point that lifts the pen. -/
theorem openings_lift :
    openings (front ++ .penUp :: back) =
      openings front ++ (openings back).map (front.length + 1 + ·) := by
  have places : List.range (front ++ .penUp :: back).length =
      List.range front.length ++ [front.length] ++
        (List.range back.length).map (front.length + 1 + ·) := by
    rw [← List.range_succ, ← List.range_add, List.length_append, List.length_cons]
    congr 1
    omega
  have early : (List.range front.length).filter (opens (front ++ .penUp :: back)) =
      openings front :=
    List.filter_congr fun place inside => opens_front front back (List.mem_range.mp inside)
  have late : opens (front ++ .penUp :: back) ∘ (front.length + 1 + ·) = opens back :=
    funext (opens_back front back)
  rw [openings, places, List.filter_append, List.filter_append, early,
    List.filter_cons_of_neg (ne_true_of_eq_false (opens_lift front back)), List.filter_nil,
    List.append_nil, List.filter_map, late]
  rfl

variable {front back} {place : Nat} {stroke : List Point}

/-- A stroke stands at the same place if the pen is lifted behind it. -/
theorem standsAt_front (h : StandsAt front place stroke) :
    StandsAt (front ++ .penUp :: back) place stroke := by
  obtain ⟨before, after, rfl, length, lifted, ends⟩ := h
  refine ⟨before, after ++ .penUp :: back, List.append_assoc _ _ _, length, lifted, ?_⟩
  cases after with
  | nil => exact fun p hp => (Option.some.inj hp).symm
  | cons q after => exact ends

/-- Behind a lift of the pen a stroke stands as much further as there are points. -/
theorem standsAt_back (h : StandsAt back place stroke) :
    StandsAt (front ++ .penUp :: back) (front.length + 1 + place) stroke := by
  obtain ⟨before, after, rfl, length, lifted, ends⟩ := h
  refine ⟨front ++ .penUp :: before, after, ?_, ?_, ?_, ends⟩
  · simp only [List.append_assoc, List.cons_append]
  · rw [List.length_append, List.length_cons, length]
    omega
  · intro p last
    rw [List.getLast?_append_cons, List.getLast?_cons] at last
    cases hbefore : before.getLast? with
    | none =>
        rw [hbefore] at last
        exact (Option.some.inj last).symm
    | some q =>
        rw [hbefore] at last
        rw [← Option.some.inj last]
        exact lifted q hbefore

end

/-! ## All strokes -/

/-- **Every stroke stands where it is opened**, and one stroke is opened for each. -/
theorem standsAt_openings (ps : List Point) :
    List.Forall₂ (StandsAt ps) (openings ps) (strokesOf ps) := by
  induction ps using lift_induction with
  | drawn ps drawn =>
      by_cases none : ps = []
      · rw [none, strokesOf_nil]
        exact .nil
      · rw [openings_of_drawn drawn none, strokesOf_of_drawn drawn none]
        exact .cons (standsAt_whole ps) .nil
  | lift front back first second =>
      rw [openings_lift, strokesOf_lift]
      refine List.rel_append (first.imp fun _ _ stands => standsAt_front stands) ?_
      exact List.forall₂_map_left_iff.mpr (second.imp fun _ _ stands => standsAt_back stands)

/-- A stroke holds drawn points only. -/
theorem penUp_not_mem_of_mem_strokesOf (ps : List Point) :
    ∀ stroke ∈ strokesOf ps, .penUp ∉ stroke := by
  intro stroke mem lifted
  rw [strokesOf_eq_runs] at mem
  exact absurd (Text.forall_of_mem_runs mem _ lifted) (by decide)

/-- Openings are told from the first to the last. -/
theorem pairwise_openings (ps : List Point) : (openings ps).Pairwise (· < ·) :=
  List.pairwise_lt_range.filter _

/-- **Strokes are the maximal runs of drawn points.**  No stroke is empty or lifts the pen.  In
their order, they stand where a drawn point comes first or behind a pen-up point, each up to the
next pen-up point or the end of the path; so there are as many strokes as such points, and together
the strokes hold all drawn points.  Drawings with a pen-up point between them keep their strokes. -/
theorem strokes_maximal_runs (p : Path) :
    (∀ stroke ∈ p.strokes, stroke ≠ [] ∧ .penUp ∉ stroke) ∧
    List.Forall₂ (StandsAt p.points) (openings p.points) p.strokes ∧
    (openings p.points).Pairwise (· < ·) ∧
    p.strokes.flatten = p.points.filter (· ≠ .penUp) ∧
    (∀ q : Path, strokes ⟨p.points ++ [.penUp] ++ q.points⟩ = p.strokes ++ q.strokes) ∧
    p.strokes.length = (List.range p.points.length).countP (opens p.points) := by
  have stands := standsAt_openings p.points
  refine ⟨?_, stands, pairwise_openings p.points, ?_, ?_, ?_⟩
  · intro stroke mem
    exact ⟨ne_nil_of_mem_strokesOf p.points stroke mem,
      penUp_not_mem_of_mem_strokesOf p.points stroke mem⟩
  · rw [strokes, flatten_strokesOf]
    refine List.filter_congr fun q _ => ?_
    rw [decide_not, Point.isPenUp]
    rfl
  · intro q
    rw [strokes, List.append_assoc, List.singleton_append, strokesOf_lift]
    rfl
  · rw [List.countP_eq_length_filter]
    exact stands.length_eq.symm

end PenDrawing.Path
