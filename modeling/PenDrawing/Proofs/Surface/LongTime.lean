import PenDrawing.Proofs.Surface.History

/-!
# Very long times

No frame takes a mark back (`Canvas.revealed_le_advance`), and of two frames the longer one shows no
fewer marks as long as a machine word counts those that it pays for
(`Canvas.exists_advance_of_counted`).

But a `Duration` holds more than that.  The number of steps is cut to its low 64 bits, so a frame
that pays for `2 ^ 64` marks shows none (`Canvas.revealed_advance_uncounted`), whatever the
speed.  So over all times the law holds just for a canvas that shows all its marks already, or does
not wait for any (`Canvas.revealed_advance_mono`).
-/

namespace PenDrawing.Canvas

variable {delay : Nat} {c : Canvas}

/-- No frame takes a mark back. -/
theorem revealed_le_advance (h : Sound c) (time : Duration) :
    c.revealed ≤ (c.advance time).1.revealed := by
  cases waits : c.speed.stepDelay with
  | none =>
      rw [advance_of_instant waits]
      exact h.shown
  | some delay =>
      rcases advance_cases waits time with same | ⟨kept, shown, after, -, count⟩
      · rw [same]
      · rw [after]
        show c.revealed ≤ shown
        rcases count with rfl | rfl
        · exact Nat.le_refl _
        · exact Nat.le_min.mpr ⟨Nat.le_add_right _ _, h.shown⟩

/-! ## As long as the marks are counted -/

/-- A frame shows all marks that it pays for together with the time that was kept, if a machine word
counts them. -/
theorem exists_advance_of_counted (h : Paced delay c) {time : Duration}
    (fits : c.banked.nanos + time.nanos < durationLimit)
    (counted : c.revealed + (c.banked.nanos + time.nanos) / delay < countLimit) :
    ∃ after, c.advance time = (after, .ok ()) ∧
      after.revealed = min c.marks.size (c.revealed + (c.banked.nanos + time.nanos) / delay) := by
  by_cases complete : c.isComplete = true
  · refine ⟨c, advance_of_isComplete h complete time, ?_⟩
    rw [← (isComplete_iff c).mp complete]
    exact (Nat.min_eq_left (Nat.le_add_right _ _)).symm
  · have sum : c.banked.add time = .ok ⟨c.banked.nanos + time.nanos, fits⟩ := dif_pos fits
    refine ⟨_, advance_of_not_isComplete h complete sum counted, ?_⟩
    exact Nat.min_comm _ _

/-- Of two frames that are counted the longer one shows no fewer marks. -/
theorem revealed_advance_le_of_counted (h : Paced delay c) {first second : Duration}
    (shorter : first.nanos ≤ second.nanos)
    (fits : c.banked.nanos + second.nanos < durationLimit)
    (counted : c.revealed + (c.banked.nanos + second.nanos) / delay < countLimit) :
    (c.advance first).2 = .ok () ∧ (c.advance second).2 = .ok () ∧
      (c.advance first).1.revealed ≤ (c.advance second).1.revealed := by
  have fewer : (c.banked.nanos + first.nanos) / delay ≤ (c.banked.nanos + second.nanos) / delay :=
    Nat.div_le_div_right (Nat.add_le_add_left shorter _)
  have shortFits : c.banked.nanos + first.nanos < durationLimit := by omega
  obtain ⟨before, advanced, count⟩ := exists_advance_of_counted h shortFits (by omega)
  obtain ⟨after, advanced', count'⟩ := exists_advance_of_counted h fits counted
  rw [advanced, advanced']
  refine ⟨rfl, rfl, ?_⟩
  show before.revealed ≤ after.revealed
  omega

/-! ## Beyond that -/

/-- The steps that a machine word cannot count any more take a time that a `Duration` holds. -/
theorem Paced.countLimit_mul_lt (paced : Paced delay c) : countLimit * delay < durationLimit := by
  have slow := Nat.mul_le_mul_left countLimit (Speed.stepDelay_le paced.waits)
  have limit : countLimit * longestDelay < durationLimit := by decide
  omega

/-- They take far longer than the time that is kept and a step. -/
theorem banked_add_delay_le (h : Sound c) (paced : Paced delay c) :
    c.banked.nanos + delay ≤ countLimit * delay := by
  have kept := h.kept
  have many : longestDelay ≤ countLimit - 1 := by decide
  calc c.banked.nanos + delay ≤ (countLimit - 1) * 1 + delay := by omega
    _ ≤ (countLimit - 1) * delay + delay :=
        Nat.add_le_add_right (Nat.mul_le_mul_left _ paced.pos) delay
    _ = countLimit * delay := by
        rw [← Nat.succ_mul]
        rfl

/-- The time that pays, together with the time that is kept, for one mark more than a machine word
counts. -/
def uncounted (paced : Paced delay c) : Duration :=
  ⟨countLimit * delay - c.banked.nanos, Nat.lt_of_le_of_lt (Nat.sub_le _ _) paced.countLimit_mul_lt⟩

/-- The long frame and the kept time pay for as many marks as cannot be counted. -/
theorem banked_add_uncounted (h : Sound c) (paced : Paced delay c) :
    c.banked.nanos + (uncounted paced).nanos = countLimit * delay := by
  have enough := banked_add_delay_le h paced
  exact Nat.add_sub_of_le (by omega)

/-- A frame that pays for one mark more than a machine word counts shows none. -/
theorem revealed_advance_uncounted (h : Sound c) (paced : Paced delay c) :
    (c.advance (uncounted paced)).1.revealed = c.revealed := by
  have none : (c.banked.nanos + (uncounted paced).nanos) / delay % countLimit = 0 := by
    rw [banked_add_uncounted h paced, Nat.mul_div_cancel _ paced.pos, Nat.mod_self]
  rcases advance_cases paced.waits (uncounted paced) with same | ⟨kept, shown, after, -, count⟩
  · rw [same]
  · rw [after]
    show shown = c.revealed
    rcases count with rfl | rfl
    · rfl
    · rw [none]
      exact Nat.min_eq_left h.shown

/-- A frame of one step shows a mark if there is one left. -/
theorem lt_revealed_advance_step (h : Sound c) (paced : Paced delay c)
    (left : c.revealed < c.marks.size) {step : Duration} (one : step.nanos = delay) :
    c.revealed < (c.advance step).1.revealed := by
  have slow := Speed.stepDelay_le paced.waits
  have kept := h.kept
  have limits : 2 * longestDelay < frameLimit ∧ frameLimit < durationLimit := by decide
  have short : c.banked.nanos + step.nanos < frameLimit := by omega
  have paid : 1 ≤ (c.banked.nanos + step.nanos) / delay := by
    rw [Nat.le_div_iff_mul_le paced.pos]
    omega
  obtain ⟨after, advanced, count⟩ :=
    exists_advance_of_counted paced (by omega) (paced.counted short)
  rw [advanced]
  show c.revealed < after.revealed
  omega

/-- Over all times, longer frames show no fewer marks just if all marks are shown already. -/
theorem revealed_advance_le_iff (h : Sound c) (paced : Paced delay c) :
    (∀ first second : Duration, first.nanos ≤ second.nanos →
      c.banked.nanos + second.nanos < durationLimit →
      (c.advance first).1.revealed ≤ (c.advance second).1.revealed) ↔ c.isComplete = true := by
  constructor
  · intro longer
    by_contra waiting
    have some : c.revealed ≠ c.marks.size := fun all => waiting ((isComplete_iff c).mpr all)
    have left : c.revealed < c.marks.size := Nat.lt_of_le_of_ne h.shown some
    -- one step shows a mark, and far more steps than a machine word counts show none
    have enough := banked_add_delay_le h paced
    have total := banked_add_uncounted h paced
    have fits := paced.countLimit_mul_lt
    let step : Duration := ⟨delay, by omega⟩
    have fewer := longer step (uncounted paced) (show delay ≤ (uncounted paced).nanos by omega)
      (by omega)
    rw [revealed_advance_uncounted h paced] at fewer
    exact Nat.not_lt_of_le fewer (lt_revealed_advance_step h paced left rfl)
  · intro complete first second _ _
    rw [advance_of_isComplete paced complete, advance_of_isComplete paced complete]

/-! ## After any events -/

/-- **What longer frames show.** Whatever happened to a canvas, no frame takes a mark back, and
without a wait between marks every frame shows all of them.  With a wait, the longer one of two
frames shows no fewer marks as long as a machine word counts the marks that are shown and those that
the longer frame pays for.  This holds over all times that can be added to the time that is kept just
if all marks are shown already.

Sums are checked here, as `advance` has them.  Where the count of marks is left to wrap around
instead, a frame of nearly `2 ^ 64` steps may take marks back, so the first part holds there only of
frames that are counted. -/
theorem revealed_advance_mono (style : Style) (events : List Event) :
    let c := (blank style).history events
    (∀ time, c.revealed ≤ (c.advance time).1.revealed) ∧
    (c.speed.stepDelay = none → ∀ time, c.advance time = (c.revealAll, .ok ())) ∧
    ∀ delay, c.speed.stepDelay = some delay → c.marks.size < sizeLimit →
      (∀ first second : Duration, first.nanos ≤ second.nanos →
        c.banked.nanos + second.nanos < durationLimit →
        c.revealed + (c.banked.nanos + second.nanos) / delay < countLimit →
        (c.advance first).2 = .ok () ∧ (c.advance second).2 = .ok () ∧
          (c.advance first).1.revealed ≤ (c.advance second).1.revealed) ∧
      ((∀ first second : Duration, first.nanos ≤ second.nanos →
          c.banked.nanos + second.nanos < durationLimit →
          (c.advance first).1.revealed ≤ (c.advance second).1.revealed) ↔
        c.isComplete = true) := by
  intro c
  have sound : Sound c := sound_history style events
  refine ⟨revealed_le_advance sound, ?_, ?_⟩
  · intro instant time
    rw [advance, instant]
  · intro delay waits stored
    have paced : Paced delay c := ⟨waits, sound.shown, stored⟩
    constructor
    · intro first second shorter fits counted
      exact revealed_advance_le_of_counted paced shorter fits counted
    · exact revealed_advance_le_iff sound paced

/-- A stroke of two dots at the fastest speed. -/
def twoDots : List Event :=
  [.tell (.moveTo ⟨0, 0⟩), .tell (.dot 1), .tell (.moveTo ⟨1, 1⟩), .tell (.dot 1)]

/-- Of three marks, 7 milliseconds show one and 12 milliseconds two. -/
theorem revealed_advance_mono_two_frames :
    let c := (blank .standard).history twoDots
    c.speed.stepDelay = some 5000000 ∧ c.marks.size < sizeLimit ∧
      (c.advance (.ofNanos 7000000)).1.revealed = 1 ∧
      (c.advance (.ofNanos 12000000)).1.revealed = 2 ∧
      (c.advance (.ofNanos 7000000)).1.revealed ≤ (c.advance (.ofNanos 12000000)).1.revealed := by
  have waits : ((blank .standard).history twoDots).speed.stepDelay = some 5000000 := by
    decide +kernel
  have stored : ((blank .standard).history twoDots).marks.size < sizeLimit := by
    decide +kernel
  have counted := (revealed_advance_mono .standard twoDots).2.2 5000000 waits stored
  obtain ⟨-, -, more⟩ := counted.1 (.ofNanos 7000000) (.ofNanos 12000000) (by decide +kernel)
    (by decide +kernel) (by decide +kernel)
  exact ⟨waits, stored, by decide +kernel, by decide +kernel, more⟩

/-- A frame of 15 milliseconds shows all three marks, and one of 2.9 billion years, which is a
`Duration` and pays for `2 ^ 64` marks, shows none and is used up. -/
theorem longer_frame_shows_less :
    let c := (blank .standard).history twoDots
    let long := Duration.ofNanos (countLimit * 5000000)
    (Duration.ofNanos 15000000).nanos ≤ long.nanos ∧
      c.banked.nanos + long.nanos < durationLimit ∧ long.nanos = countLimit * 5000000 ∧
      c.advance long = (c, .ok ()) ∧
      (c.advance (.ofNanos 15000000)).1.revealed = 3 ∧ (c.advance long).1.revealed = 0 ∧
      ¬ (c.advance (.ofNanos 15000000)).1.revealed ≤ (c.advance long).1.revealed := by
  refine ⟨by decide +kernel, by decide +kernel, by decide +kernel, ?_, by decide +kernel,
    by decide +kernel, by decide +kernel⟩
  rfl

end PenDrawing.Canvas
