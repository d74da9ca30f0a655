import PenDrawing.Surface.Command

/-!
# A surface that keeps what it is told

A recording draws nothing; it keeps the commands, from the first to the last, until they are taken.
It counts as closed as long as closing is the last thing it was told.
-/

namespace PenDrawing

/-- The commands that were told since they were last taken. -/
structure Recording where
  commands : Array Command

namespace Recording

/-- A recording that was told nothing. -/
def empty : Recording := ⟨#[]⟩

/-- A command that ends the session. -/
def isClose : Command → Bool
  | .close => true
  | _ => false

/-- Closing was the last thing that was told. -/
def isClosed (r : Recording) : Bool := r.commands.back?.any isClose

/-- Takes the commands out. -/
def take (r : Recording) : Array Command × Recording := (r.commands, empty)

instance : Surface Recording where
  apply r command := ⟨r.commands.push command⟩

/-- A command is kept behind the earlier ones. -/
theorem toList_apply (r : Recording) (command : Command) :
    (Surface.apply r command).commands.toList = r.commands.toList ++ [command] := by
  simp [Surface.apply]

end Recording

end PenDrawing
