import PenDrawing.Proofs.Surface.Session
import PenDrawing.Surface.Canvas
import PenDrawing.Surface.Picture
import PenDrawing.Surface.Recording
import Mathlib.Tactic.Common

/-!
# A recording stands for its session

Whatever the surface, a session does to it what the commands of the session do, one after another
(`Renderer.session_eq_applyAll`).  These commands are a matter of the turns alone
(`sessionCommands`): in each turn a renderer says what the turn asks for, with the speed it was set
to last.  A recording keeps them as they are (`Recording.toList_applyAll`), so replaying it on a new
surface does what the session would have done there (`replay_recorded`).
-/

namespace PenDrawing

/-! ## What is said in a session -/

/-- The speed that a turn sets a renderer to. What its surface is told about speed does not
count. -/
def Turn.speed? : Turn → Option Speed
  | .setSpeed speed => some speed
  | .render _ => none
  | .clear => none
  | .tell _ => none

/-- The speed of a renderer after turns: the one it was set to last, or the one it began with. -/
def latestSpeed (begun : Speed) (turns : List Turn) : Speed :=
  (turns.filterMap Turn.speed?).getLast?.getD begun

/-- What is said in a turn, by a renderer of a speed and a size of dots. -/
def Turn.commands (speed : Speed) (dotSize : Float32) : Turn → List Command
  | .render path =>
    if path.points = [] then []
    else
      [.setSpeed speed, .setWorld .program] ++ path.points.flatMap fun p =>
        if p = .penUp then [.penUp] else [.moveTo p.toWorld, .dot dotSize]
  | .clear => [.clear]
  | .setSpeed _ => []
  | .tell command => [command]

/-- What is said in a session: turn by turn, with the speed that was set last before the turn. -/
def sessionCommands (begun : Speed) (dotSize : Float32) (turns : List Turn) : List Command :=
  (turns.mapIdx fun i turn => turn.commands (latestSpeed begun (turns.take i)) dotSize).flatten

/-- The speed that was set last is set by the first turn or by a later one. -/
theorem latestSpeed_cons (begun : Speed) (turn : Turn) (rest : List Turn) :
    latestSpeed begun (turn :: rest) = latestSpeed (turn.speed?.getD begun) rest := by
  rw [latestSpeed, latestSpeed]
  cases set : turn.speed? with
  | none =>
      rw [List.filterMap_cons_none set]
      rfl
  | some speed =>
      rw [List.filterMap_cons_some set, List.getLast?_cons]
      rfl

/-- A first turn hands its speed on to all others. -/
theorem sessionCommands_cons (begun : Speed) (dotSize : Float32) (turn : Turn)
    (rest : List Turn) :
    sessionCommands begun dotSize (turn :: rest) =
      turn.commands begun dotSize ++
        sessionCommands (turn.speed?.getD begun) dotSize rest := by
  rw [sessionCommands, List.mapIdx_cons, List.flatten_cons, sessionCommands]
  simp only [List.take_succ_cons, latestSpeed_cons]
  rfl

/-- The sentinel lifts the pen, and every other point moves it and makes a dot. -/
theorem pointCommands_eq (dotSize : Float32) (p : Point) :
    pointCommands dotSize p =
      if p = .penUp then [.penUp] else [.moveTo p.toWorld, .dot dotSize] := by
  rw [pointCommands, Point.penState]
  by_cases up : p = .penUp
  · rw [if_pos up, if_pos (p.isPenUp_iff.mpr up)]
  · rw [if_neg up, if_neg fun h => up (p.isPenUp_iff.mp h)]

/-- What is said for a path depends on its points, one by one. -/
theorem pathCommands_eq (speed : Speed) (dotSize : Float32) (path : Path) :
    pathCommands speed dotSize path = Turn.commands speed dotSize (.render path) := by
  rw [Turn.commands]
  by_cases none : path.points = []
  · rw [if_pos none, pathCommands_of_isEmpty (List.isEmpty_iff.mpr none)]
  · have points : path.isEmpty = false := by
      rw [Path.isEmpty, List.isEmpty_eq_false_iff]
      exact none
    rw [if_neg none, pathCommands_of_points points, funext (pointCommands_eq dotSize)]
    rfl

/-! ## Sessions on any surface -/

namespace Renderer

variable {σ : Type}

/-- What a renderer says in a turn depends on its speed and its dots alone. -/
theorem said_eq (r : Renderer σ) (turn : Turn) : r.said turn = turn.commands r.speed r.dotSize := by
  cases turn with
  | render path => exact pathCommands_eq r.speed r.dotSize path
  | clear => rfl
  | setSpeed speed => rfl
  | tell command => rfl

variable [Surface σ]

theorem speed_turn (r : Renderer σ) (turn : Turn) :
    (r.turn turn).speed = turn.speed?.getD r.speed := by
  cases turn <;> rfl

/-- After some turns a surface is what their commands make of it. -/
theorem surface_after (r : Renderer σ) (turns : List Turn) :
    (r.after turns).surface = applyAll r.surface (sessionCommands r.speed r.dotSize turns) := by
  induction turns generalizing r with
  | nil => rfl
  | cons turn rest ih =>
      have later := ih (r.turn turn)
      rw [surface_turn, said_eq, speed_turn, dotSize_turn] at later
      rw [sessionCommands_cons, applyAll_append]
      exact later

/-- The surface after a whole session, which is closed at its end or not. -/
def session (r : Renderer σ) (turns : List Turn) (closes : Bool) : σ :=
  if closes then (r.after turns).close else (r.after turns).surface

/-- The commands at the end of a session. -/
def lastCommands (closes : Bool) : List Command := if closes then [.close] else []

/-- A session does to a surface what its commands do. -/
theorem session_eq_applyAll (r : Renderer σ) (turns : List Turn) (closes : Bool) :
    r.session turns closes =
      applyAll r.surface (sessionCommands r.speed r.dotSize turns ++ lastCommands closes) := by
  rw [applyAll_append, ← surface_after]
  cases closes with
  | true => rfl
  | false => rfl

end Renderer

/-- A recording keeps all that it is told. -/
theorem Recording.toList_applyAll (r : Recording) (commands : List Command) :
    (applyAll r commands).commands.toList = r.commands.toList ++ commands := by
  induction commands generalizing r with
  | nil => exact (List.append_nil _).symm
  | cons command rest ih =>
      show (applyAll (Surface.apply r command) rest).commands.toList = _
      rw [ih, toList_apply, List.append_assoc]
      rfl

/-- **A recording stands for its session.**  It holds what was said in each turn, one turn after
another, with the speed that the renderer was set to last, and the command that closes the surface
if the session ended with it.  Replayed on a new canvas or on a new picture, it leads to what the
session itself leads to there. -/
theorem replay_recorded (speed : Speed) (dotSize : Float32) (turns : List Turn) (closes : Bool) :
    let recorded : Recording := Renderer.session ⟨.empty, speed, dotSize⟩ turns closes
    recorded.commands.toList =
      sessionCommands speed dotSize turns ++ (if closes then [.close] else []) ∧
    (∀ style : Style,
      applyAll (Canvas.blank style) recorded.commands.toList =
        Renderer.session ⟨.blank style, speed, dotSize⟩ turns closes) ∧
    ∀ (width height : Nat) (style : Style),
      applyAll (Picture.blank width height style) recorded.commands.toList =
        Renderer.session ⟨.blank width height style, speed, dotSize⟩ turns closes := by
  intro recorded
  have kept : recorded.commands.toList =
      sessionCommands speed dotSize turns ++ Renderer.lastCommands closes := by
    have told := Renderer.session_eq_applyAll ⟨Recording.empty, speed, dotSize⟩ turns closes
    exact (congrArg (·.commands.toList) told).trans (Recording.toList_applyAll _ _)
  refine ⟨kept, ?_, ?_⟩
  · intro style
    rw [kept, Renderer.session_eq_applyAll]
  · intro width height style
    rw [kept, Renderer.session_eq_applyAll]

end PenDrawing
