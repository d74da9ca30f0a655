import PenDrawing.Surface.Canvas
import Mathlib.Algebra.Ring.Nat
import Mathlib.Tactic.Common

/-!
# Marks appear at a pace

Time passes for a canvas in frames, each one longer or shorter.  The route to saying that the cut
into frames does not matter:

* a canvas has been given so much time for its marks: what those it shows have cost, and what it
  keeps (`Canvas.credit`);
* a frame adds its length to that as long as marks are left, and shows as many marks as all of it
  pays for (`Canvas.Passes`, `exists_advance`), and two such steps are one (`Passes.trans`);
* so frames one after another are one long frame (`exists_advanceAll`).
-/

namespace PenDrawing

/-- The nanoseconds of several times together. -/
def elapsed (times : List Duration) : Nat := (times.map Duration.nanos).sum

theorem elapsed_cons (time : Duration) (times : List Duration) :
    elapsed (time :: times) = time.nanos + elapsed times := rfl

namespace Canvas

/-- A canvas after several frames, up to the first one that is too much. -/
def advanceAll (c : Canvas) : List Duration → Canvas × Except Overrun Unit
  | [] => (c, .ok ())
  | time :: times =>
    match c.advance time with
    | (after, .ok ()) => after.advanceAll times
    | (after, .error overrun) => (after, .error overrun)

/-- An array has fewer bytes than this, and so fewer marks. -/
def sizeLimit : Nat := Nat.pow 2 63

/-- The frames that are looked at are shorter than this together, 292 years. -/
def frameLimit : Nat := Nat.pow 2 63

/-- A canvas that waits for some time between two marks and shows no more of them than it has. -/
structure Paced (delay : Nat) (c : Canvas) : Prop where
  waits : c.speed.stepDelay = some delay
  shown : c.revealed ≤ c.marks.size
  stored : c.marks.size < sizeLimit

/-- The time that a canvas was given for its marks: what those that are shown have cost, and what is
kept for the next one. -/
def credit (delay : Nat) (c : Canvas) : Nat := c.revealed * delay + c.banked.nanos

/-- What a canvas becomes in some time: of the same marks it shows as many as its credit and that
time pay for together, and as long as marks are left the time is added to the credit. -/
structure Passes (delay time : Nat) (c after : Canvas) : Prop where
  marks : after.marks = c.marks
  speed : after.speed = c.speed
  revealed : after.revealed = min c.marks.size ((c.credit delay + time) / delay)
  credit : after.revealed < c.marks.size → after.credit delay = c.credit delay + time
  banked : after.banked.nanos ≤ c.banked.nanos + time

variable {delay : Nat} {c : Canvas}

theorem Paced.pos (h : Paced delay c) : 0 < delay := Speed.stepDelay_pos h.waits

/-- What is shown is paid for, and the rest of the credit pays for more. -/
theorem Paced.credit_div (h : Paced delay c) (time : Nat) :
    (c.credit delay + time) / delay = c.revealed + (c.banked.nanos + time) / delay := by
  rw [credit, Nat.add_assoc, Nat.mul_comm, Nat.mul_add_div h.pos]

/-- The marks that are shown are paid for. -/
theorem Paced.le_credit_div (h : Paced delay c) (time : Nat) :
    c.revealed ≤ (c.credit delay + time) / delay := by
  rw [h.credit_div]
  exact Nat.le_add_right _ _

theorem isComplete_iff (c : Canvas) : c.isComplete = true ↔ c.revealed = c.marks.size :=
  beq_iff_eq

/-- A machine word counts the marks that a short time pays for. -/
theorem Paced.counted (h : Paced delay c) {time : Nat} (short : time < frameLimit) :
    c.revealed + time / delay < countLimit := by
  have limits : frameLimit + sizeLimit ≤ countLimit := by decide
  have shown := h.shown
  have stored := h.stored
  have few : time / delay ≤ time := Nat.div_le_self _ _
  omega

/-! ## One frame -/

/-- A complete canvas stays as it is, and keeps no time. -/
theorem advance_of_isComplete (h : Paced delay c) (complete : c.isComplete = true)
    (time : Duration) : c.advance time = (c, .ok ()) := by
  rw [advance, h.waits]
  simp only [if_pos complete]

/-- As long as marks are left, a frame shows as many of them as fit into it and the time that was
kept, and keeps what is left of that, if a machine word counts them. -/
theorem advance_of_not_isComplete (h : Paced delay c) (left : ¬ c.isComplete = true)
    {time total : Duration} (sum : c.banked.add time = .ok total)
    (counted : c.revealed + total.nanos / delay < countLimit) :
    c.advance time =
      ({ c with
          banked := total.remainder delay
          revealed := min (c.revealed + total.nanos / delay) c.marks.size }, .ok ()) := by
  have steps : total.nanos / delay % countLimit = total.nanos / delay :=
    Nat.mod_eq_of_lt (by omega)
  rw [advance, h.waits]
  simp only [if_neg left, sum, steps, if_pos counted]

/-- Time that passes does not change the pace. -/
theorem Passes.paced {time : Nat} {after : Canvas} (passes : Passes delay time c after)
    (h : Paced delay c) : Paced delay after where
  waits := by rw [passes.speed, h.waits]
  shown := by
    rw [passes.revealed, passes.marks]
    exact Nat.min_le_left _ _
  stored := by
    rw [passes.marks]
    exact h.stored

/-- A canvas that shows all its marks stays what it is. -/
theorem passes_self (h : Paced delay c) (complete : c.revealed = c.marks.size) (time : Nat) :
    Passes delay time c c := by
  refine ⟨rfl, rfl, ?_, ?_, Nat.le_add_right _ _⟩
  · rw [h.credit_div, complete, Nat.min_eq_left (Nat.le_add_right _ _)]
  · intro left
    exact absurd complete (Nat.ne_of_lt left)

/-- A frame that is not too long passes. -/
theorem exists_advance (h : Paced delay c) {time : Duration}
    (short : c.banked.nanos + time.nanos < frameLimit) :
    ∃ after, c.advance time = (after, .ok ()) ∧ Passes delay time.nanos c after := by
  by_cases complete : c.isComplete = true
  · exact ⟨c, advance_of_isComplete h complete time,
      passes_self h ((isComplete_iff c).mp complete) time.nanos⟩
  · have limits : frameLimit ≤ durationLimit := by decide
    have fits : c.banked.nanos + time.nanos < durationLimit := by omega
    have sum : c.banked.add time = .ok ⟨c.banked.nanos + time.nanos, fits⟩ := dif_pos fits
    refine ⟨_, advance_of_not_isComplete h complete sum (h.counted short), rfl, rfl, ?_, ?_,
      Nat.mod_le _ _⟩
    · rw [h.credit_div, Nat.min_comm]
    · intro left
      -- what the new marks cost and what is left over is the time they were paid from
      have few : min (c.revealed + (c.banked.nanos + time.nanos) / delay) c.marks.size <
          c.marks.size := left
      have all : c.revealed + (c.banked.nanos + time.nanos) / delay < c.marks.size := by omega
      have whole := Nat.div_add_mod (c.banked.nanos + time.nanos) delay
      rw [Nat.mul_comm] at whole
      show min _ c.marks.size * delay + (c.banked.nanos + time.nanos) % delay = _
      rw [Nat.min_eq_left (Nat.le_of_lt all), Nat.add_mul, credit]
      show _ * delay + (c.banked.nanos + time.nanos) / delay * delay +
        (c.banked.nanos + time.nanos) % delay = _
      omega

/-! ## Frames one after another -/

/-- Two times one after the other are what they are together. -/
theorem Passes.trans {first second : Nat} {middle after : Canvas} (h : Paced delay c)
    (before : Passes delay first c middle) (behind : Passes delay second middle after) :
    Passes delay (first + second) c after := by
  obtain ⟨marks, speed, revealed, credit, banked⟩ := behind
  rw [before.marks] at revealed credit
  have paid := (before.paced h).le_credit_div second
  refine ⟨marks.trans before.marks, speed.trans before.speed, ?_, ?_, ?_⟩
  · by_cases left : middle.revealed < c.marks.size
    · rw [revealed, before.credit left, Nat.add_assoc]
    · -- all marks were paid for already, so the second time does not show any more
      have whole := before.revealed
      have more : (c.credit delay + first) / delay ≤
          (c.credit delay + (first + second)) / delay := Nat.div_le_div_right (by omega)
      omega
  · intro left
    have earlier : middle.revealed < c.marks.size := by omega
    rw [credit left, before.credit earlier, Nat.add_assoc]
  · have kept := before.banked
    omega

/-- Frames pass as one long frame. -/
theorem exists_advanceAll (h : Paced delay c) {times : List Duration} (some : times ≠ [])
    (short : c.banked.nanos + elapsed times < frameLimit) :
    ∃ after, c.advanceAll times = (after, .ok ()) ∧ Passes delay (elapsed times) c after := by
  induction times generalizing c with
  | nil => exact absurd rfl some
  | cons time times ih =>
      rw [elapsed_cons] at short
      obtain ⟨middle, first, passes⟩ :=
        exists_advance h (show c.banked.nanos + time.nanos < frameLimit by omega)
      have run : c.advanceAll (time :: times) = middle.advanceAll times := by
        rw [advanceAll, first]
      rw [run, elapsed_cons]
      cases times with
      | nil => exact ⟨middle, rfl, passes⟩
      | cons next rest =>
          have kept := passes.banked
          obtain ⟨after, frames, later⟩ :=
            ih (passes.paced h) (List.cons_ne_nil next rest) (by omega)
          exact ⟨after, frames, passes.trans h later⟩

/-- **Frames do not matter.**  A canvas that waits between two marks is given some time, in any
number of frames but at least one.  Then it shows as many marks as that time and the one it kept pay
for; it shows all of them just if they pay for all that were left; and the same time in other frames
shows the same marks. -/
theorem revealed_advanceAll {delay : Nat} {c : Canvas} (waits : c.speed.stepDelay = some delay)
    (shown : c.revealed ≤ c.marks.size) (stored : c.marks.size < sizeLimit)
    {times : List Duration} (some : times ≠ [])
    (short : c.banked.nanos + elapsed times < frameLimit) :
    ∃ after, c.advanceAll times = (after, .ok ()) ∧
      after.marks = c.marks ∧
      after.revealed =
        min c.marks.size (c.revealed + (c.banked.nanos + elapsed times) / delay) ∧
      (after.isComplete = true ↔
        (c.marks.size - c.revealed) * delay ≤ c.banked.nanos + elapsed times) ∧
      ∀ others : List Duration, others ≠ [] → elapsed others = elapsed times →
        ∃ other, c.advanceAll others = (other, .ok ()) ∧
          other.revealedMarks = after.revealedMarks := by
  have h : Paced delay c := ⟨waits, shown, stored⟩
  obtain ⟨after, frames, passes⟩ := exists_advanceAll h some short
  have revealed := passes.revealed
  rw [h.credit_div] at revealed
  refine ⟨after, frames, passes.marks, revealed, ?_, ?_⟩
  · rw [isComplete_iff, passes.marks, ← Nat.le_div_iff_mul_le h.pos]
    omega
  · intro others some' same
    obtain ⟨other, frames', passes'⟩ := exists_advanceAll h some' (same ▸ short)
    refine ⟨other, frames', ?_⟩
    rw [revealedMarks, revealedMarks, passes'.marks, passes.marks, passes'.revealed, same,
      passes.revealed]

/-- Of five marks, 5 milliseconds each, 12 milliseconds and another 3 show three, as one frame of 15
milliseconds does. -/
theorem revealed_advanceAll_two_frames :
    let mark : Mark := .dot ⟨0, 0⟩ 1
    let c : Canvas := { Canvas.blank .standard with marks := #[mark, mark, mark, mark, mark] }
    let times : List Duration := [.ofNanos 12000000, .ofNanos 3000000]
    c.speed.stepDelay = some 5000000 ∧ c.revealed ≤ c.marks.size ∧ c.marks.size < sizeLimit ∧
      times ≠ [] ∧ c.banked.nanos + elapsed times < frameLimit ∧
      ∃ after, c.advanceAll times = (after, .ok ()) ∧ after.revealed = 3 ∧
        ∃ other, c.advanceAll [.ofNanos 15000000] = (other, .ok ()) ∧
          other.revealedMarks = after.revealedMarks := by
  intro mark c times
  have waits : c.speed.stepDelay = some 5000000 := by decide
  have shown : c.revealed ≤ c.marks.size := Nat.zero_le _
  have stored : c.marks.size < sizeLimit := by
    show 5 < sizeLimit
    decide
  have some : times ≠ [] := List.cons_ne_nil _ _
  have short : c.banked.nanos + elapsed times < frameLimit := by decide
  obtain ⟨after, frames, -, revealed, -, others⟩ :=
    revealed_advanceAll waits shown stored some short
  refine ⟨waits, shown, stored, some, short, after, frames, revealed.trans (by decide), ?_⟩
  exact others [.ofNanos 15000000] (List.cons_ne_nil _ _) (by decide)

end Canvas

end PenDrawing
