import PenDrawing.Lettering.Layout
import PenDrawing.Proofs.Path
import Mathlib.Data.List.Chain

/-!
# A letter on the grid

A letter is put down by itself, wherever it stands on the sheet (`letter`).  Its steps lie on a few
columns and rows of its own sheet, and its strokes are not empty (`Neat`, `neat_steps`).  There are
two lines of places for letters and a line in the middle, so it can be looked up where a step may
fall on the grid: never on its first row or column, and so not on the point that lifts the pen
(`one_le_spot`, `isPenUp_spot`).

So the points of a letter are its steps, each in its place, with the pen lifted at their end
(`letter_of_ne_nil`), and its strokes on the grid are those on its own sheet (`strokesOf_letter`).
-/

namespace PenDrawing.Lettering

/-- The characters that can be written. -/
def alphabet : List Char := ['A', 'B', 'C', ' ']

theorem mem_alphabet {c : Char} : c ∈ alphabet ↔ c = 'A' ∨ c = 'B' ∨ c = 'C' ∨ c = ' ' := by
  simp only [alphabet, List.mem_cons, List.not_mem_nil, or_false]

/-- Exactly the characters of the alphabet have a glyph. -/
theorem glyph?_eq_none_iff {c : Char} : glyph? c = none ↔ c ∉ alphabet := by
  constructor
  · intro h mem
    rcases mem_alphabet.mp mem with rfl | rfl | rfl | rfl <;> cases h
  · intro other
    simp only [mem_alphabet, not_or] at other
    obtain ⟨a, b, c', space⟩ := other
    rw [glyph?]
    · exact a
    · exact b
    · exact c'
    · exact space

/-- The steps of a character, or none if it cannot be written. -/
def steps (c : Char) : List Step := (glyph? c).getD []

theorem steps_of_not_mem {c : Char} (h : c ∉ alphabet) : steps c = [] := by
  rw [steps, glyph?_eq_none_iff.mpr h]
  rfl

/-! ## Steps on the sheet of a letter -/

/-- A step that lifts the pen. -/
def Step.isLift : Step → Bool
  | .lift => true
  | .to _ _ => false

/-- The columns on which steps lie, from the left to the right. -/
def columns : List Float32 := [-0.5, -0.25, 0, 0.25, 0.5]

/-- The rows on which steps lie, from the bottom to the top. -/
def rows : List Float32 := [-1, -twoThirds, -0.5, 0, 0.5, twoThirds, 1]

/-- A step goes to a column and a row, if it goes anywhere. -/
def Step.Inside : Step → Prop
  | .lift => True
  | .to x y => x ∈ columns ∧ y ∈ rows

/-- Numbers are told apart by their bits here. -/
instance decidableMemFloats (x : Float32) (xs : List Float32) : Decidable (x ∈ xs) :=
  decidable_of_iff (∃ y ∈ xs, y = x) exists_eq_right

instance : DecidablePred Step.Inside := fun step =>
  match step with
  | .lift => inferInstanceAs (Decidable True)
  | .to x y => inferInstanceAs (Decidable (x ∈ columns ∧ y ∈ rows))

/-- Steps that make strokes of a letter: the pen is not lifted before the first point, twice in a
row, or behind the last point. -/
structure Neat (steps : List Step) : Prop where
  inside : ∀ step ∈ steps, step.Inside
  begins : ∀ step ∈ steps.head?, step.isLift = false
  apart : steps.IsChain fun s t => s.isLift = false ∨ t.isLift = false
  ends : ∀ step ∈ steps.getLast?, step.isLift = false

theorem neat_nil : Neat [] where
  inside := by decide
  begins := by decide
  apart := by decide
  ends := by decide

/-- The steps of every glyph are neat. -/
theorem neat_steps (c : Char) : Neat (steps c) := by
  by_cases mem : c ∈ alphabet
  · rcases mem_alphabet.mp mem with rfl | rfl | rfl | rfl <;>
      exact ⟨by decide +kernel, by decide, by decide, by decide⟩
  · rw [steps_of_not_mem mem]
    exact neat_nil

/-! ## Places on the sheet -/

/-- How far to the right a letter stands depends on its number within its line. -/
theorem slot_fst (length n : Nat) : (slot length n).1 = (slot 0 (n % lineLength)).1 := by
  simp only [slot, Nat.mod_mod]

/-- The heights at which letters stand: the one in the middle, and those of the two lines. -/
def heights : List Float32 := [(slot 0 0).2, (slot maxLength 0).2, (slot maxLength lineLength).2]

/-- The lines of a text that is not too long stand at one of a few heights. -/
theorem slot_snd_mem_heights (length : Nat) {n : Nat} (h : n < maxLength) :
    (slot length n).2 ∈ heights := by
  by_cases short : length ≤ lineLength
  · have middle : (slot length n).2 = (slot 0 0).2 := by
      simp only [slot, if_pos short, if_pos (Nat.zero_le lineLength)]
    rw [middle]
    exact List.mem_cons_self
  · have long : ¬ maxLength ≤ lineLength := by decide
    by_cases first : n < lineLength
    · have upper : (slot length n).2 = (slot maxLength 0).2 := by
        simp only [slot, if_neg short, if_neg long, Nat.div_eq_of_lt first, Nat.zero_div]
      rw [upper]
      exact List.mem_cons_of_mem _ List.mem_cons_self
    · have second : n / lineLength = 1 := by
        have limits : maxLength = 2 * lineLength := rfl
        refine Nat.div_eq_of_lt_le ?_ ?_ <;> omega
      have lower : (slot length n).2 = (slot maxLength lineLength).2 := by
        have one : lineLength / lineLength = 1 := rfl
        simp only [slot, if_neg short, if_neg long, second, one]
      rw [lower]
      exact List.mem_cons_of_mem _ (List.mem_cons_of_mem _ List.mem_cons_self)

/-- No column of a letter is the first column of the grid. -/
theorem one_le_toGrid_column : ∀ n < lineLength, ∀ x ∈ columns,
    1 ≤ toGrid (Rounding.floorWord ((slot 0 n).1 + x * letterSize)) sheetWidth := by
  decide +kernel

/-- No row of a letter is the first row of the grid. -/
theorem one_le_toGrid_row : ∀ height ∈ heights, ∀ y ∈ rows,
    1 ≤ toGrid (Rounding.floorWord (height - y * letterSize)) sheetHeight := by
  decide +kernel

variable {length n : Nat}

/-- What is drawn of a letter is drawn off the first row and column. -/
theorem one_le_spot (h : n < maxLength) {step : Step} (inside : step.Inside)
    (down : step.isLift = false) :
    1 ≤ (spot (slot length n) step).x ∧ 1 ≤ (spot (slot length n) step).y := by
  match step, inside, down with
  | .to x y, ⟨hx, hy⟩, _ =>
      constructor
      · show 1 ≤ toGrid (Rounding.floorWord ((slot length n).1 + x * letterSize)) sheetWidth
        rw [slot_fst]
        exact one_le_toGrid_column _ (Nat.mod_lt n (by decide)) x hx
      · exact one_le_toGrid_row _ (slot_snd_mem_heights length h) y hy

/-- A step lifts the pen where it falls just if it is one that does. -/
theorem isPenUp_spot (h : n < maxLength) {step : Step} (inside : step.Inside) :
    (spot (slot length n) step).isPenUp = step.isLift := by
  cases lifts : step.isLift with
  | true =>
      match step, lifts with
      | .lift, _ => rfl
  | false =>
      refine Bool.eq_false_iff.mpr fun up => ?_
      have off : 1 ≤ (spot (slot length n) step).x := (one_le_spot h inside lifts).1
      rw [(Point.isPenUp_iff _).mp up] at off
      exact absurd off (by decide)

/-! ## Letters -/

/-- The pen is lifted at the end of a drawing, if anything was drawn. -/
def Lifted (ps : List Point) : Prop := ∀ p ∈ ps.getLast?, p.isPenUp = true

theorem lifted_nil : Lifted [] := by
  intro p hp
  cases hp

theorem lifted_of_getLast? {ps : List Point} {p : Point} (last : ps.getLast? = some p)
    (up : p.isPenUp = true) : Lifted ps := by
  intro q hq
  rw [last] at hq
  rw [← Option.some.inj hq]
  exact up

theorem liftAtEnd_of_lifted {ps : List Point} (h : Lifted ps) : liftAtEnd ps = ps := by
  rw [liftAtEnd]
  cases last : ps.getLast? with
  | none => rfl
  | some p => exact if_pos (h p last)

theorem liftAtEnd_of_getLast? {ps : List Point} {p : Point} (last : ps.getLast? = some p)
    (down : p.isPenUp = false) : liftAtEnd ps = ps ++ [Point.penUp] := by
  rw [liftAtEnd, last]
  exact if_neg (ne_true_of_eq_false down)

/-- In the end the pen is lifted, whatever the points were. -/
theorem lifted_liftAtEnd (ps : List Point) : Lifted (liftAtEnd ps) := by
  cases last : ps.getLast? with
  | none =>
      rw [List.getLast?_eq_none_iff.mp last]
      exact lifted_nil
  | some p =>
      cases state : p.isPenUp with
      | true =>
          have up := lifted_of_getLast? last state
          rw [liftAtEnd_of_lifted up]
          exact up
      | false =>
          rw [liftAtEnd_of_getLast? last state]
          exact lifted_of_getLast? List.getLast?_concat rfl

/-- A letter is put behind a drawing as it is put down by itself. -/
theorem addLetter_eq_append {drawing : List Point} (h : Lifted drawing) (place : Float32 × Float32)
    (steps : List Step) :
    addLetter drawing place steps = drawing ++ addLetter [] place steps := by
  rw [addLetter, addLetter, List.nil_append]
  generalize steps.map (spot place) = points
  cases last : points.getLast? with
  | none =>
      rw [List.getLast?_eq_none_iff.mp last, List.append_nil, liftAtEnd_of_lifted h]
      exact (List.append_nil drawing).symm
  | some p =>
      have whole : (drawing ++ points).getLast? = some p := by
        rw [List.getLast?_append, last]
        rfl
      cases state : p.isPenUp with
      | true =>
          rw [liftAtEnd_of_lifted (lifted_of_getLast? whole state),
            liftAtEnd_of_lifted (lifted_of_getLast? last state)]
      | false =>
          rw [liftAtEnd_of_getLast? whole state, liftAtEnd_of_getLast? last state,
            List.append_assoc]

/-- The points of a letter that is the `n`-th of so many. -/
def letter (length n : Nat) (c : Char) : List Point := addLetter [] (slot length n) (steps c)

theorem letter_of_eq_nil {c : Char} (none : steps c = []) : letter length n c = [] := by
  rw [letter, none]
  rfl

/-- The points of a letter are its steps, each in its place, and then the pen is lifted. -/
theorem letter_of_ne_nil (h : n < maxLength) {c : Char} (some : steps c ≠ []) :
    letter length n c = (steps c).map (spot (slot length n)) ++ [Point.penUp] := by
  have neat := neat_steps c
  have last := List.getLast?_eq_some_getLast some
  have inside := neat.inside _ (List.getLast_mem some)
  rw [letter, addLetter, List.nil_append]
  refine liftAtEnd_of_getLast? (p := spot (slot length n) ((steps c).getLast some)) ?_ ?_
  · rw [List.getLast?_map, last]
    rfl
  · rw [isPenUp_spot h inside]
    exact neat.ends _ last

/-- A letter has a point for each step, and one for the lifted pen. -/
theorem length_letter (h : n < maxLength) (c : Char) :
    (letter length n c).length = if steps c = [] then 0 else (steps c).length + 1 := by
  by_cases none : steps c = []
  · rw [if_pos none, letter_of_eq_nil none]
    rfl
  · rw [if_neg none, letter_of_ne_nil h none, List.length_append, List.length_map]
    rfl

/-! ## Strokes of letters -/

/-- The strokes of a letter that is the `n`-th of so many: those on its own sheet, each of their
steps in its place. -/
def letterStrokes (length n : Nat) (c : Char) : List (List Point) :=
  (Text.runs (!·.isLift) (steps c)).map (List.map (spot (slot length n)))

/-- The strokes of a letter are those of its glyph, moved to its place. -/
theorem strokesOf_letter (h : n < maxLength) (c : Char) :
    Path.strokesOf (letter length n c) = letterStrokes length n c := by
  by_cases none : steps c = []
  · rw [letter_of_eq_nil none, Path.strokesOf_nil, letterStrokes, none]
    rfl
  · rw [letter_of_ne_nil h none, Path.strokesOf_eq_runs, Text.runs_concat _ (by rfl), letterStrokes]
    refine Text.runs_map fun step hstep => ?_
    rw [isPenUp_spot h ((neat_steps c).inside step hstep)]

/-- Drawings that can be put behind one another: what is drawn is off the first row and column, and
the pen is lifted behind it, once, and nowhere before it. -/
structure Tidy (ps : List Point) : Prop where
  drawn : ∀ p ∈ ps, p.isPenUp = false → 1 ≤ p.x ∧ 1 ≤ p.y
  begins : ∀ p ∈ ps.head?, p.isPenUp = false
  apart : ps.IsChain fun p q => p.isPenUp = false ∨ q.isPenUp = false
  ends : Lifted ps

theorem tidy_nil : Tidy [] where
  drawn := by
    intro p hp
    cases hp
  begins := by
    intro p hp
    cases hp
  apart := .nil
  ends := lifted_nil

theorem Tidy.append {front back : List Point} (h : Tidy front) (h' : Tidy back) :
    Tidy (front ++ back) where
  drawn := by
    intro p hp
    rcases List.mem_append.mp hp with here | there
    · exact h.drawn p here
    · exact h'.drawn p there
  begins := by
    intro p hp
    cases front with
    | nil => exact h'.begins p hp
    | cons q rest => exact h.begins p hp
  apart := by
    refine List.isChain_append.mpr ⟨h.apart, h'.apart, ?_⟩
    intro p _ q hq
    exact .inr (h'.begins q hq)
  ends := by
    intro p hp
    rw [List.getLast?_append] at hp
    cases last : back.getLast? with
    | none =>
        rw [last] at hp
        exact h.ends p hp
    | some q =>
        rw [last] at hp
        exact h'.ends p (last.trans hp)

/-- The points of every letter are tidy. -/
theorem tidy_letter (h : n < maxLength) (c : Char) : Tidy (letter length n c) := by
  by_cases none : steps c = []
  · rw [letter_of_eq_nil none]
    exact tidy_nil
  · have neat := neat_steps c
    have lifts : ∀ step ∈ steps c, (spot (slot length n) step).isPenUp = step.isLift :=
      fun step hstep => isPenUp_spot h (neat.inside step hstep)
    rw [letter_of_ne_nil h none]
    constructor
    · intro p hp down
      rcases List.mem_append.mp hp with here | last
      · obtain ⟨step, hstep, rfl⟩ := List.mem_map.mp here
        rw [lifts step hstep] at down
        exact one_le_spot h (neat.inside step hstep) down
      · rw [List.mem_singleton.mp last] at down
        cases down
    · obtain ⟨first, rest, all⟩ := List.exists_cons_of_ne_nil none
      intro p hp
      rw [all] at hp
      rw [← Option.some.inj hp, lifts first (by rw [all]; exact List.mem_cons_self)]
      exact neat.begins first (by rw [all]; rfl)
    · refine List.isChain_append.mpr ⟨?_, List.isChain_singleton _, ?_⟩
      · rw [List.isChain_map]
        refine neat.apart.imp_of_mem_imp fun s t hs ht one => ?_
        rw [lifts s hs, lifts t ht]
        exact one
      · intro p hp _ _
        rw [List.getLast?_map, Option.mem_def, Option.map_eq_some_iff] at hp
        obtain ⟨step, last, rfl⟩ := hp
        left
        rw [lifts step (List.mem_of_getLast? last)]
        exact neat.ends step last
    · exact lifted_of_getLast? List.getLast?_concat rfl

end PenDrawing.Lettering
