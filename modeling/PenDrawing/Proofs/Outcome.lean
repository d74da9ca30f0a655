/-!
# Steps that may fail

A step that gives a value hands it on, and what succeeds has gone through each of its steps.
-/

namespace PenDrawing

variable {ε ε' α β : Type}

/-- What gives a value after a step has the value of the step. -/
theorem exists_of_bind {step : Except ε α} {next : α → Except ε β} {b : β}
    (h : step >>= next = .ok b) : ∃ a, step = .ok a ∧ next a = .ok b := by
  cases step with
  | error cause => cases h
  | ok a => exact ⟨a, rfl, h⟩

/-- What is made of the value of a step has that value behind it. -/
theorem exists_of_map {step : Except ε α} {f : α → β} {b : β} (h : step.map f = .ok b) :
    ∃ a, step = .ok a ∧ f a = b := by
  cases step with
  | error cause => cases h
  | ok a => exact ⟨a, rfl, Except.ok.inj h⟩

/-- A step that gives a value hands it on, whatever its errors are called. -/
theorem mapError_bind_of_eq_ok {step : Except ε α} {a : α} (h : step = .ok a) (name : ε → ε')
    (next : α → Except ε' β) : (step.mapError name >>= next) = next a := by
  rw [h]
  rfl

end PenDrawing
