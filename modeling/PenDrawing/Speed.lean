/-!
# Drawing speed

A drawing appears mark by mark. Its speed runs from 1, the slowest, to 10, the fastest; speed 0
takes no time at all.
-/

namespace PenDrawing

/-- The fastest speed. -/
def maxSpeed : Nat := 10

/-- A drawing speed. -/
structure Speed where
  value : Nat
  value_le : value ≤ maxSpeed
deriving DecidableEq, Repr

/-- A value that is no speed. -/
structure SpeedError where
  value : Nat
deriving DecidableEq, Repr

/-- The text that reports a value that is no speed. -/
def SpeedError.message (e : SpeedError) : String :=
  s!"speed must be between 0 and {maxSpeed}, got {e.value}"

namespace Speed

/-- The speed of a value. -/
def of (value : Nat) : Except SpeedError Speed :=
  if h : value ≤ maxSpeed then .ok ⟨value, h⟩ else .error ⟨value⟩

/-- The speed of a surface that was told none. -/
def fastest : Speed := ⟨maxSpeed, Nat.le_refl _⟩

instance : Inhabited Speed := ⟨fastest⟩

/-- The text of a speed. -/
def text (s : Speed) : String := toString s.value

/-- The milliseconds that a step of speed `maxSpeed` takes. -/
def shortestDelay : Nat := 5

/-- The nanoseconds between two steps, or nothing where there is no wait. -/
def stepDelay (s : Speed) : Option Nat :=
  if s.value = 0 then none else some (shortestDelay * (maxSpeed + 1 - s.value) * 1000000)

/-- Where there is a wait it is not empty. -/
theorem stepDelay_pos {s : Speed} {delay : Nat} (h : s.stepDelay = some delay) : 0 < delay := by
  have at_most : s.value ≤ 10 := s.value_le
  unfold stepDelay at h
  split at h
  · simp at h
  · have h : 5 * (10 + 1 - s.value) * 1000000 = delay := Option.some.inj h
    omega

end Speed

end PenDrawing
