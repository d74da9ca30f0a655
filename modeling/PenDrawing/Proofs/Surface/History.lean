import PenDrawing.Proofs.Surface.Pace
import Mathlib.Data.List.Induction

/-!
# What has happened to a canvas

A canvas is told something, time passes for it, or all its marks are shown, in any order
(`Canvas.history`).  Whatever happens, it shows no more marks than it has and keeps less time than
the slowest step takes (`Canvas.Sound`, `Canvas.sound_history`).

The time that it keeps is less than one step of the speed that it had when that time was left over.
It stays less than a step as long as no speed is set whose steps are not longer than the time that is
kept just then (`Canvas.keepsLess_history`).  A frame shows what the time that is kept and its own
length pay for, and so at most one mark more than its own length pays for, just if no more is kept
than one step (`Canvas.revealed_history_advance`).  A canvas that slowly came close to its next mark
and is then made faster shows more at once (`Canvas.kept_time_pays_for_more`).
-/

namespace PenDrawing

/-- The nanoseconds that a step of the slowest speed takes. -/
def longestDelay : Nat := 50000000

/-- No speed waits longer than the slowest one. -/
theorem Speed.stepDelay_le {s : Speed} {delay : Nat} (h : s.stepDelay = some delay) :
    delay ≤ longestDelay := by
  rw [stepDelay] at h
  by_cases instant : s.value = 0
  · rw [if_pos instant] at h
    cases h
  · rw [if_neg instant] at h
    have whole : 5 * (10 + 1 - s.value) * 1000000 = delay := Option.some.inj h
    have most : longestDelay = 50000000 := rfl
    omega

namespace Canvas

/-- What can happen to a canvas. -/
inductive Event where
  | tell (command : Command)
  /-- Time passes. -/
  | pass (time : Duration)
  /-- All marks are shown at once. -/
  | revealAll

/-- A canvas after an event.  Where a time was too much, this is how far it came. -/
def happen (c : Canvas) : Event → Canvas
  | .tell command => Surface.apply c command
  | .pass time => (c.advance time).1
  | .revealAll => c.revealAll

/-- A canvas after one event and another. -/
def history (c : Canvas) (events : List Event) : Canvas := events.foldl happen c

theorem history_concat (c : Canvas) (events : List Event) (event : Event) :
    c.history (events ++ [event]) = (c.history events).happen event := by
  rw [history, List.foldl_append]
  rfl

/-- What is given at the beginning and kept by every event holds after all of them. -/
theorem history_keeps {P : Canvas → Prop} (each : ∀ c event, P c → P (happen c event)) {c : Canvas}
    (h : P c) (events : List Event) : P (c.history events) := by
  induction events generalizing c with
  | nil => exact h
  | cons event rest ih => exact ih (each c event h)

/-! ## All that a frame can do -/

/-- A frame changes nothing but how many marks are shown and what time is kept.  It leaves both as
they are, or it keeps what is left of all the time after as many steps as fit; the marks that are
shown then are the same, or as many more as these steps, but not more than there are. -/
theorem advance_cases {c : Canvas} {delay : Nat} (waits : c.speed.stepDelay = some delay)
    (time : Duration) :
    (c.advance time).1 = c ∨
      ∃ (kept : Duration) (shown : Nat),
        (c.advance time).1 = { c with banked := kept, revealed := shown } ∧
        kept.nanos = (c.banked.nanos + time.nanos) % delay ∧
        (shown = c.revealed ∨
          shown = min (c.revealed + (c.banked.nanos + time.nanos) / delay % countLimit)
            c.marks.size) := by
  rw [advance, waits]
  by_cases complete : c.isComplete = true
  · left
    simp only [if_pos complete]
  · by_cases fits : c.banked.nanos + time.nanos < durationLimit
    · right
      have sum : c.banked.add time = .ok ⟨c.banked.nanos + time.nanos, fits⟩ := dif_pos fits
      simp only [if_neg complete, sum]
      by_cases few : c.revealed + (c.banked.nanos + time.nanos) / delay % countLimit < countLimit
      · rw [if_pos few]
        exact ⟨_, _, rfl, rfl, .inr rfl⟩
      · rw [if_neg few]
        exact ⟨_, _, rfl, rfl, .inl rfl⟩
    · left
      have sum : c.banked.add time = .error .time := dif_neg fits
      simp only [if_neg complete, sum]

/-- Without a wait a frame shows all marks. -/
theorem advance_of_instant {c : Canvas} (instant : c.speed.stepDelay = none) (time : Duration) :
    (c.advance time).1 = c.revealAll := by
  rw [advance, instant]

/-! ## What always holds -/

/-- No more marks are shown than there are, and less time is kept than the slowest step takes. -/
structure Sound (c : Canvas) : Prop where
  shown : c.revealed ≤ c.marks.size
  kept : c.banked.nanos < longestDelay

theorem sound_blank (style : Style) : Sound (blank style) where
  shown := Nat.le_refl 0
  kept := by
    show 0 < longestDelay
    decide

theorem sound_revealAll (c : Canvas) : Sound c.revealAll where
  shown := Nat.le_refl c.marks.size
  kept := by
    show 0 < longestDelay
    decide

variable {c : Canvas}

theorem Sound.add (h : Sound c) (mark : Mark) : Sound (c.add mark) where
  shown := by
    show c.revealed ≤ (c.marks.push mark).size
    rw [Array.size_push]
    exact Nat.le_succ_of_le h.shown
  kept := h.kept

theorem Sound.apply (h : Sound c) (command : Command) : Sound (Surface.apply c command) := by
  cases command with
  | moveTo place =>
      show Sound (c.moveTo place)
      rw [moveTo]
      cases c.pen with
      | none => exact ⟨h.shown, h.kept⟩
      | some start => exact ⟨(h.add _).shown, h.kept⟩
  | dot size =>
      show Sound (c.dot size)
      rw [dot]
      cases c.pen with
      | none => exact h
      | some center => exact h.add _
  | clear => exact ⟨Nat.le_refl 0, (sound_blank c.style).kept⟩
  | _ => exact ⟨h.shown, h.kept⟩

/-- Every frame leaves a canvas sound. -/
theorem Sound.advance (h : Sound c) (time : Duration) : Sound (c.advance time).1 := by
  cases waits : c.speed.stepDelay with
  | none =>
      rw [advance_of_instant waits]
      exact sound_revealAll c
  | some delay =>
      rcases advance_cases waits time with same | ⟨kept, shown, after, left, count⟩
      · rw [same]
        exact h
      · have least := Nat.mod_lt (c.banked.nanos + time.nanos) (Speed.stepDelay_pos waits)
        have most := Speed.stepDelay_le waits
        rw [after]
        constructor
        · show shown ≤ c.marks.size
          rcases count with rfl | rfl
          · exact h.shown
          · exact Nat.min_le_right _ _
        · show kept.nanos < longestDelay
          omega

theorem Sound.happen (h : Sound c) (event : Event) : Sound (c.happen event) := by
  cases event with
  | tell command => exact h.apply command
  | pass time => exact h.advance time
  | revealAll => exact sound_revealAll c

/-- A canvas is sound after any events. -/
theorem sound_history (style : Style) (events : List Event) :
    Sound ((blank style).history events) :=
  history_keeps (fun _ event h => h.happen event) (sound_blank style) events

/-! ## Time for less than a step -/

/-- A canvas that waits between marks keeps less time than one step takes. -/
def KeepsLess (c : Canvas) : Prop :=
  ∀ delay, c.speed.stepDelay = some delay → c.banked.nanos < delay

theorem keepsLess_of_banked_eq_zero (h : c.banked.nanos = 0) : KeepsLess c := by
  intro delay waits
  rw [h]
  exact Speed.stepDelay_pos waits

/-- No command makes a canvas keep more than a step, if a new speed waits longer than what is kept. -/
theorem KeepsLess.apply (h : KeepsLess c) {command : Command}
    (longer : ∀ speed, command = .setSpeed speed →
      ∀ delay, speed.stepDelay = some delay → c.banked.nanos < delay) :
    KeepsLess (Surface.apply c command) := by
  cases command with
  | setSpeed speed => exact longer speed rfl
  | moveTo place =>
      show KeepsLess (c.moveTo place)
      rw [moveTo]
      cases c.pen with
      | none => exact h
      | some start => exact h
  | dot size =>
      show KeepsLess (c.dot size)
      rw [dot]
      cases c.pen with
      | none => exact h
      | some center => exact h
  | clear => exact keepsLess_of_banked_eq_zero rfl
  | _ => exact h

/-- A frame leaves less time over than a step takes. -/
theorem KeepsLess.advance (h : KeepsLess c) (time : Duration) :
    KeepsLess (c.advance time).1 := by
  cases waits : c.speed.stepDelay with
  | none =>
      rw [advance_of_instant waits]
      exact keepsLess_of_banked_eq_zero rfl
  | some delay =>
      rcases advance_cases waits time with same | ⟨kept, shown, after, left, -⟩
      · rw [same]
        exact h
      · rw [after]
        intro delay' waits'
        have still : some delay = some delay' := waits.symm.trans waits'
        show kept.nanos < delay'
        rw [left, ← Option.some.inj still]
        exact Nat.mod_lt _ (Speed.stepDelay_pos waits)

/-- Less time than a step takes is kept as long as each speed that is set has longer steps than the
time that is kept just then. -/
theorem keepsLess_history (style : Style) (events : List Event)
    (longer : ∀ before speed later, events = before ++ .tell (.setSpeed speed) :: later →
      ∀ delay, speed.stepDelay = some delay →
        ((blank style).history before).banked.nanos < delay) :
    KeepsLess ((blank style).history events) := by
  induction events using List.reverseRecOn with
  | nil => exact keepsLess_of_banked_eq_zero rfl
  | append_singleton before event ih =>
      have earlier : KeepsLess ((blank style).history before) := by
        refine ih fun front speed later cut => ?_
        have still : before ++ [event] = front ++ .tell (.setSpeed speed) :: (later ++ [event]) := by
          rw [cut, List.append_assoc, List.cons_append]
        exact longer front speed (later ++ [event]) still
      rw [history_concat]
      cases event with
      | tell command =>
          refine earlier.apply fun speed told => ?_
          exact longer before speed [] (by rw [told])
      | pass time => exact earlier.advance time
      | revealAll => exact keepsLess_of_banked_eq_zero rfl

/-! ## One frame after all that -/

/-- A frame that is short enough shows the marks that its time and the kept time pay for. -/
theorem exists_advance_of_sound {delay : Nat} (h : Sound c)
    (waits : c.speed.stepDelay = some delay) (stored : c.marks.size < sizeLimit) {time : Duration}
    (short : c.banked.nanos + time.nanos < frameLimit) :
    ∃ after, c.advance time = (after, .ok ()) ∧ after.marks = c.marks ∧
      after.revealed =
        min c.marks.size (c.revealed + (c.banked.nanos + time.nanos) / delay) := by
  have paced : Paced delay c := ⟨waits, h.shown, stored⟩
  obtain ⟨after, advanced, passes⟩ := exists_advance paced short
  refine ⟨after, advanced, passes.marks, ?_⟩
  rw [passes.revealed, paced.credit_div]

/-- No frame shows more than one mark beyond those that it pays for itself, just if the time that is
kept pays for one at most, or no more than one is left. -/
theorem advance_le_iff {delay : Nat} (h : Sound c) (waits : c.speed.stepDelay = some delay)
    (stored : c.marks.size < sizeLimit) :
    (∀ time : Duration, c.banked.nanos + time.nanos < frameLimit →
      (c.advance time).1.revealed ≤ c.revealed + time.nanos / delay + 1) ↔
      c.banked.nanos ≤ delay ∨ c.marks.size ≤ c.revealed + 1 := by
  have pos := Speed.stepDelay_pos waits
  constructor
  · intro few
    by_contra other
    rw [not_or, Nat.not_le, Nat.not_le] at other
    obtain ⟨more, left⟩ := other
    -- a frame that is shorter than a step, but with the time that is kept lasts for two
    have slow := Speed.stepDelay_le waits
    have kept := h.kept
    have limits : 2 * longestDelay < frameLimit ∧ frameLimit < durationLimit := by decide
    let time : Duration := ⟨2 * delay - c.banked.nanos, by omega⟩
    have short : c.banked.nanos + time.nanos < frameLimit := by
      show c.banked.nanos + (2 * delay - c.banked.nanos) < frameLimit
      omega
    obtain ⟨after, advanced, -, count⟩ := exists_advance_of_sound h waits stored short
    have two : 2 ≤ (c.banked.nanos + time.nanos) / delay := by
      rw [Nat.le_div_iff_mul_le pos]
      show 2 * delay ≤ c.banked.nanos + (2 * delay - c.banked.nanos)
      omega
    have none : time.nanos / delay = 0 := by
      refine Nat.div_eq_of_lt ?_
      show 2 * delay - c.banked.nanos < delay
      omega
    have bound := few time short
    rw [advanced, none] at bound
    have shown : after.revealed ≤ c.revealed + 0 + 1 := bound
    rw [count] at shown
    omega
  · intro enough time short
    obtain ⟨after, advanced, -, count⟩ := exists_advance_of_sound h waits stored short
    rw [advanced]
    show after.revealed ≤ c.revealed + time.nanos / delay + 1
    rcases enough with one | last
    · have paid : (c.banked.nanos + time.nanos) / delay ≤ time.nanos / delay + 1 := by
        rw [← Nat.add_div_right time.nanos pos]
        exact Nat.div_le_div_right (by omega)
      calc after.revealed ≤ c.revealed + (c.banked.nanos + time.nanos) / delay := by
            rw [count]
            exact Nat.min_le_right _ _
        _ ≤ c.revealed + time.nanos / delay + 1 := Nat.add_le_add_left paid c.revealed
    · calc after.revealed ≤ c.marks.size := by
            rw [count]
            exact Nat.min_le_left _ _
        _ ≤ c.revealed + 1 := last
        _ ≤ c.revealed + time.nanos / delay + 1 :=
            Nat.add_le_add_right (Nat.le_add_right c.revealed _) 1

/-- **What a frame pays for.**  Whatever happened to a canvas that waits between two marks, a frame
shows as many further marks as the time that was kept and the frame pay for together.  That is at
most one more than the frame pays for itself, for every frame, exactly if no more time is kept than a
step takes, or if no more than one mark is left.  Less than that is kept, unless at some time a speed
was set whose steps were not longer than the time that was kept just then. -/
theorem revealed_history_advance (style : Style) (events : List Event) {delay : Nat}
    (waits : ((blank style).history events).speed.stepDelay = some delay)
    (stored : ((blank style).history events).marks.size < sizeLimit) :
    let c := (blank style).history events
    (∀ time : Duration, c.banked.nanos + time.nanos < frameLimit →
      ∃ after, c.advance time = (after, .ok ()) ∧ after.marks = c.marks ∧
        after.revealed =
          min c.marks.size (c.revealed + (c.banked.nanos + time.nanos) / delay)) ∧
    ((∀ time : Duration, c.banked.nanos + time.nanos < frameLimit →
        (c.advance time).1.revealed ≤ c.revealed + time.nanos / delay + 1) ↔
      c.banked.nanos ≤ delay ∨ c.marks.size ≤ c.revealed + 1) ∧
    (c.banked.nanos < delay ∨
      ∃ before speed later step, events = before ++ .tell (.setSpeed speed) :: later ∧
        speed.stepDelay = some step ∧ step ≤ ((blank style).history before).banked.nanos) := by
  intro c
  have sound : Sound c := sound_history style events
  refine ⟨fun time short => exists_advance_of_sound sound waits stored short,
    advance_le_iff sound waits stored, ?_⟩
  by_contra other
  rw [not_or] at other
  obtain ⟨more, never⟩ := other
  refine more (keepsLess_history style events ?_ delay waits)
  intro before speed later cut step steps
  by_contra shorter
  exact never ⟨before, speed, later, step, cut, steps, Nat.le_of_not_lt shorter⟩

/-- Three dots at the slowest speed, a frame, and then the fastest speed. -/
def quickened (frame : Duration) : List Event :=
  [.tell (.setSpeed ⟨1, by decide⟩), .tell (.moveTo ⟨0, 0⟩), .tell (.dot 1), .tell (.dot 1),
    .tell (.dot 1), .pass frame, .tell (.setSpeed .fastest)]

/-- From 3 milliseconds at the slowest speed less than a step of the fastest one is kept, and a frame
of 4 milliseconds shows one mark. -/
theorem revealed_history_advance_quickened :
    let c := (blank .standard).history (quickened (.ofNanos 3000000))
    c.speed.stepDelay = some 5000000 ∧ c.marks.size < sizeLimit ∧ c.banked.nanos ≤ 5000000 ∧
      c.banked.nanos + (Duration.ofNanos 4000000).nanos < frameLimit ∧
      (c.advance (.ofNanos 4000000)).1.revealed ≤
        c.revealed + (Duration.ofNanos 4000000).nanos / 5000000 + 1 ∧
      ∃ after, c.advance (.ofNanos 4000000) = (after, .ok ()) ∧ after.revealed = 1 := by
  have waits : ((blank .standard).history (quickened (.ofNanos 3000000))).speed.stepDelay =
      some 5000000 := by decide +kernel
  have stored : ((blank .standard).history (quickened (.ofNanos 3000000))).marks.size <
      sizeLimit := by decide +kernel
  have kept : ((blank .standard).history (quickened (.ofNanos 3000000))).banked.nanos ≤
      5000000 := by decide +kernel
  have short : ((blank .standard).history (quickened (.ofNanos 3000000))).banked.nanos +
      (Duration.ofNanos 4000000).nanos < frameLimit := by decide +kernel
  obtain ⟨frame, bound, -⟩ := revealed_history_advance .standard _ waits stored
  obtain ⟨after, advanced, -, count⟩ := frame (.ofNanos 4000000) short
  refine ⟨waits, stored, kept, short, bound.mpr (.inl kept) _ short, after, advanced, ?_⟩
  rw [count]
  decide +kernel

/-- From 49 milliseconds at the slowest speed nine steps of the fastest one are kept: a frame of no
length shows all three marks, although it pays for none. -/
theorem kept_time_pays_for_more :
    let c := (blank .standard).history (quickened (.ofNanos 49000000))
    c.speed.stepDelay = some 5000000 ∧ c.revealed = 0 ∧ c.banked.nanos = 49000000 ∧
      (c.advance .zero).1.revealed = 3 ∧
      ¬ (c.advance .zero).1.revealed ≤ c.revealed + Duration.zero.nanos / 5000000 + 1 := by
  decide +kernel

end Canvas

end PenDrawing
