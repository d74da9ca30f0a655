import PenDrawing.Proofs.Surface.Session
import PenDrawing.Surface.Canvas
import PenDrawing.Surface.Picture
import PenDrawing.Surface.Recording
import Mathlib.Tactic.Common

/-!
# The end of a session

A canvas and a picture have a flag for the end of their session.  Closing sets it, and no other
command touches it, so it stays set for good (`applyAll_iff_of_apply`).

A recording has no such flag: it looks at the last command that it holds.  So it counts as closed
just after it was closed, and not any more once it was told something else or its commands were
taken (`Recording.isClosed_after`).  The three agree as long as nothing follows on closing
(`closed_by_close`); a recording whose commands are taken at the end of its session disagrees
(`closing_undone_by_take`).
-/

namespace PenDrawing

/-! ## Surfaces with a flag -/

/-- What one command brings about and all others leave as it is holds after several commands exactly
if it held before, or if that command is among them. -/
theorem applyAll_iff_of_apply {σ : Type} [Surface σ] {P : σ → Prop} {cause : Command}
    (brings : ∀ s, P (Surface.apply s cause))
    (leaves : ∀ s command, command ≠ cause → (P (Surface.apply s command) ↔ P s)) (surface : σ)
    (commands : List Command) : P (applyAll surface commands) ↔ P surface ∨ cause ∈ commands := by
  induction commands generalizing surface with
  | nil =>
      show P surface ↔ P surface ∨ cause ∈ []
      simp
  | cons command rest ih =>
      show P (applyAll (Surface.apply surface command) rest) ↔ _
      rw [ih, List.mem_cons]
      by_cases here : command = cause
      · rw [here]
        simp [brings]
      · rw [leaves surface command here]
        simp [Ne.symm here]

/-- No other command changes whether a canvas is closed. -/
theorem Canvas.closed_apply (c : Canvas) {command : Command} (h : command ≠ .close) :
    (Surface.apply c command).closed = c.closed := by
  cases command with
  | moveTo place =>
      show (c.moveTo place).closed = _
      rw [moveTo]
      cases c.pen <;> rfl
  | dot size =>
      show (c.dot size).closed = _
      rw [dot]
      cases c.pen <;> rfl
  | close => exact absurd rfl h
  | _ => rfl

/-- No other command changes whether a picture is closed. -/
theorem Picture.closed_apply (p : Picture) {command : Command} (h : command ≠ .close) :
    (Surface.apply p command).closed = p.closed := by
  cases command with
  | moveTo place =>
      obtain ⟨raster, -, done⟩ := p.exists_step_moveTo place
      rw [Picture.apply_eq_of_step done]
  | dot size =>
      obtain ⟨raster, -, done⟩ := p.exists_step_dot size
      rw [Picture.apply_eq_of_step done]
  | close => exact absurd rfl h
  | _ => rfl

/-- A canvas is closed exactly by being closed. -/
theorem Canvas.closed_applyAll (c : Canvas) (commands : List Command) :
    (applyAll c commands).closed = true ↔ c.closed = true ∨ .close ∈ commands :=
  applyAll_iff_of_apply (P := fun c : Canvas => c.closed = true) (fun _ => rfl)
    (fun c _ other => by rw [c.closed_apply other]) c commands

/-- A picture is closed exactly by being closed. -/
theorem Picture.closed_applyAll (p : Picture) (commands : List Command) :
    (applyAll p commands).closed = true ↔ p.closed = true ∨ .close ∈ commands :=
  applyAll_iff_of_apply (P := fun p : Picture => p.closed = true) (fun _ => rfl)
    (fun p _ other => by rw [p.closed_apply other]) p commands

/-! ## Recordings -/

namespace Recording

/-- What can be done with a recording. -/
inductive Use where
  | tell (command : Command)
  /-- Its commands are taken out. -/
  | take

/-- A recording after it was used. -/
def use (r : Recording) : Use → Recording
  | .tell command => Surface.apply r command
  | .take => r.take.2

/-- A recording after it was used several times. -/
def after (r : Recording) (uses : List Use) : Recording := uses.foldl use r

theorem isClose_iff (command : Command) : isClose command = true ↔ command = .close := by
  cases command with
  | close => exact ⟨fun _ => rfl, fun _ => rfl⟩
  | _ => exact ⟨nofun, nofun⟩

/-- Whether a recording counts as closed is a matter of its last use. -/
theorem isClosed_use (r : Recording) (u : Use) :
    (r.use u).isClosed = true ↔ u = .tell .close := by
  cases u with
  | tell command =>
      show (r.commands.push command).back?.any isClose = true ↔ _
      rw [Array.back?_push, Option.any_some, isClose_iff]
      exact ⟨congrArg Use.tell, Use.tell.inj⟩
  | take => exact ⟨nofun, nofun⟩

/-- A recording counts as closed exactly if closing was the last thing that was done with it. -/
theorem isClosed_after (uses : List Use) :
    (empty.after uses).isClosed = true ↔ uses.getLast? = some (.tell .close) := by
  rcases List.eq_nil_or_concat uses with rfl | ⟨before, u, rfl⟩
  · exact ⟨nofun, nofun⟩
  · rw [List.concat_eq_append, after, List.foldl_append, List.getLast?_concat, Option.some_inj]
    exact isClosed_use (empty.after before) u

end Recording

/-- **The end of a session.**  A canvas and a picture are closed exactly if they were closed at any
time.  A recording is closed exactly if that was the last thing that was done with it; so it agrees
with the other two exactly if it was never closed, or if nothing followed on closing. -/
theorem closed_by_close (style : Style) (width height : Nat) (commands : List Command)
    (uses : List Recording.Use) :
    ((applyAll (Canvas.blank style) commands).closed = true ↔ .close ∈ commands) ∧
    ((applyAll (Picture.blank width height style) commands).closed = true ↔ .close ∈ commands) ∧
    ((Recording.empty.after uses).isClosed = true ↔ uses.getLast? = some (.tell .close)) ∧
    (((Recording.empty.after uses).isClosed = true ↔ .tell .close ∈ uses) ↔
      .tell .close ∉ uses ∨ uses.getLast? = some (.tell .close)) := by
  have recording := Recording.isClosed_after uses
  refine ⟨?_, ?_, recording, ?_⟩
  · rw [Canvas.closed_applyAll]
    exact or_iff_right nofun
  · rw [Picture.closed_applyAll]
    exact or_iff_right nofun
  · rw [recording]
    constructor
    · intro agree
      by_cases told : .tell .close ∈ uses
      · exact .inr (agree.mpr told)
      · exact .inl told
    · rintro (never | last)
      · exact ⟨List.mem_of_getLast?, fun told => absurd told never⟩
      · exact ⟨List.mem_of_getLast?, fun _ => last⟩

/-- A recording that was closed counts as open once its commands are taken, where a canvas and a
picture that were closed are closed. -/
theorem closing_undone_by_take :
    Recording.Use.tell .close ∈ [Recording.Use.tell .close, .take] ∧
    (Recording.empty.after [.tell .close]).isClosed = true ∧
    (Recording.empty.after [.tell .close, .take]).isClosed = false ∧
    (applyAll (Canvas.blank .standard) [.close]).closed = true ∧
    (applyAll (Picture.blank 1 1 .standard) [.close]).closed = true :=
  ⟨List.mem_cons_self, rfl, rfl, rfl, rfl⟩

end PenDrawing
