import PenDrawing.Toml.Document

/-!
# What scans give

A property that whatever a scan **`Gives`** has can be followed through the ways in which scans are
put together, whatever text they read.
-/

namespace PenDrawing.Toml.Scan

variable {α β : Type} {P : α → Prop} {Q : β → Prop} {p q : Scan α}

/-- Whatever the scan gives has a property. -/
def Gives (P : α → Prop) (p : Scan α) : Prop := ∀ cs a rest, p cs = some (a, rest) → P a

/-- Every scan gives something. -/
theorem gives_any (p : Scan α) : Gives (fun _ => True) p := fun _ _ _ _ => trivial

theorem gives_pure {a : α} (h : P a) : Gives P (pure a) := by
  intro cs b rest given
  rw [← (Prod.mk.inj (Option.some.inj given)).1]
  exact h

theorem gives_failure : Gives P failure := by
  intro cs a rest given
  cases given

/-- What a scan gives is what the second of its two steps gives. -/
theorem gives_bind {next : α → Scan β} (first : Gives P p) (second : ∀ a, P a → Gives Q (next a)) :
    Gives Q (p >>= next) := by
  intro cs b rest given
  obtain ⟨⟨a, between⟩, taken, given⟩ := Option.bind_eq_some_iff.mp given
  exact second a (first cs a between taken) between b rest given

theorem gives_orElse (first : Gives P p) (second : Gives P q) : Gives P (p <|> q) := by
  intro cs a rest given
  have either : (p cs <|> q cs) = some (a, rest) := given
  cases taken : p cs with
  | none =>
      rw [taken] at either
      exact second cs a rest either
  | some found =>
      rw [taken] at either
      exact first cs a rest (taken.trans either)

theorem gives_perhaps (h : Gives P p) : Gives (∀ a ∈ ·, P a) (perhaps p) := by
  intro cs found rest given a mem
  rw [perhaps] at given
  cases taken : p cs with
  | none =>
      rw [taken] at given
      rw [← (Prod.mk.inj (Option.some.inj given)).1] at mem
      cases mem
  | some result =>
      rw [taken] at given
      rw [← (Prod.mk.inj (Option.some.inj given)).1] at mem
      rw [← Option.some.inj mem]
      exact h cs result.1 result.2 taken

theorem forall_mem_manyFrom (h : Gives P p) (limit : Nat) :
    ∀ cs, ∀ a ∈ (manyFrom p limit cs).1, P a := by
  induction limit with
  | zero =>
      intro cs a mem
      cases mem
  | succ limit ih =>
      intro cs a mem
      rw [manyFrom] at mem
      cases taken : p cs with
      | none =>
          rw [taken] at mem
          cases mem
      | some found =>
          rw [taken] at mem
          rcases List.mem_cons.mp mem with rfl | later
          · exact h cs _ _ taken
          · exact ih found.2 a later

/-- All that is read one after another is as what is read once. -/
theorem gives_many (h : Gives P p) : Gives (∀ a ∈ ·, P a) (many p) := by
  intro cs found rest given
  rw [← (Prod.mk.inj (Option.some.inj given)).1]
  exact forall_mem_manyFrom h cs.length cs

theorem gives_located (h : Gives P p) : Gives (P ·.value) (located p) := by
  intro cs found rest given
  rw [located] at given
  cases taken : p cs with
  | none =>
      rw [taken] at given
      cases given
  | some result =>
      rw [taken] at given
      rw [← (Prod.mk.inj (Option.some.inj given)).1]
      exact h cs result.1 result.2 taken

theorem gives_separated (h : Gives P p) : Gives (∀ a ∈ ·, P a) (separated p) := by
  refine gives_bind (gives_perhaps h) fun found first => ?_
  cases found with
  | none => exact gives_pure fun a mem => absurd mem List.not_mem_nil
  | some a =>
      refine gives_bind (gives_many (gives_bind (gives_any _) fun _ _ => h)) fun more later => ?_
      exact gives_pure (List.forall_mem_cons.mpr ⟨first a rfl, later⟩)

end PenDrawing.Toml.Scan
