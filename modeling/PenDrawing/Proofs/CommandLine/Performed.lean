import PenDrawing.CommandLine.Rehearsal
import PenDrawing.Proofs.CommandLine.Pictures
import PenDrawing.Proofs.Files.Tree

/-!
# What a script does

Of what a script says two things remain when it is done on a tree of files: the lines that were
printed, and the pictures that were saved.  Either is told action by action:

* performing a script saves its pictures one after another, up to the first that cannot be saved,
  and if all can, prints its lines (`exists_of_perform`);
* a run with a listing is its script, behind the directory for pictures if there are to be any
  (`run_drawEntries_of_none`, `run_drawEntries_of_some`).
-/

namespace PenDrawing

open CommandLine

namespace CommandLine

/-! ## Lines -/

/-- The text of a line that is printed, and is no note. -/
def Line.printed? : Line → Option String
  | .printed text => some text
  | .note _ _ => none

/-- The lines that were printed, from the first to the last. -/
def printedLines (lines : Array Line) : List String := lines.toList.filterMap Line.printed?

theorem printedLines_push (lines : Array Line) (line : Line) :
    printedLines (lines.push line) = printedLines lines ++ line.printed?.toList := by
  rw [printedLines, Array.toList_push, List.filterMap_append]
  cases line <;> rfl

/-- The line that an action prints. -/
def Action.printed? : Action → Option String
  | .print line => some line
  | .note _ _ => none
  | .save _ _ => none

/-- The lines that are to be printed, one after another. -/
def prints (actions : List Action) : List String := actions.filterMap Action.printed?

theorem prints_append (first second : List Action) :
    prints (first ++ second) = prints first ++ prints second :=
  List.filterMap_append

/-! ## Action by action -/

section

variable (debug : Bool) (rest : List Action) (stage : Stage)

theorem perform_print (line : String) :
    (perform debug (.print line :: rest) : Rehearsal _).run stage =
      (perform debug rest : Rehearsal _).run
        { stage with lines := stage.lines.push (.printed line) } := rfl

/-- A note adds a line or none. -/
theorem perform_note (level : Level) (text : String) :
    (perform debug (.note level text :: rest) : Rehearsal _).run stage =
      (perform debug rest : Rehearsal _).run
        (if debug || level ≠ .debug then
          { stage with lines := stage.lines.push (.note level text) }
        else stage) := by
  rw [perform]
  by_cases asked : (debug || decide (level ≠ .debug)) = true
  · rw [if_pos asked, if_pos asked]
    rfl
  · rw [if_neg asked, if_neg asked]

/-- A picture that cannot be saved is the last thing that is done. -/
theorem perform_save (name : String) (raster : Raster) :
    (perform debug (.save name raster :: rest) : Rehearsal _).run stage =
      match stage.tree.save name raster with
      | (tree, .error cause) => (.error cause, { stage with tree })
      | (tree, .ok ()) => (perform debug rest : Rehearsal _).run { stage with tree } := by
  have ran : (Host.save name raster : Rehearsal _).run stage =
      ((stage.tree.save name raster).2,
        { stage with tree := (stage.tree.save name raster).1 }) := rfl
  rw [perform, StateT.run_bind, ran]
  rcases stage.tree.save name raster with ⟨tree, _ | _⟩ <;> rfl

end

/-- What is left of a note on a stage: nothing was printed, and the files are the same. -/
theorem printedLines_ite_note (debug : Bool) (level : Level) (text : String) (stage : Stage) :
    let noted := if debug || level ≠ .debug then
        { stage with lines := stage.lines.push (.note level text) } else stage
    noted.tree = stage.tree ∧ noted.installed = stage.installed ∧
      printedLines noted.lines = printedLines stage.lines := by
  intro noted
  by_cases asked : (debug || decide (level ≠ .debug)) = true
  · have kept : noted = { stage with lines := stage.lines.push (.note level text) } :=
      if_pos asked
    rw [kept]
    exact ⟨rfl, rfl, (printedLines_push _ _).trans (List.append_nil _)⟩
  · have kept : noted = stage := if_neg asked
    rw [kept]
    exact ⟨rfl, rfl, rfl⟩

/-- **What a script does to a stage**: its pictures are saved as far as they can be, and if all of
them are, its lines are printed. -/
theorem exists_of_perform (debug : Bool) (actions : List Action) (stage : Stage) :
    ∃ lines : Array Line,
      (perform debug actions : Rehearsal _).run stage =
        ((stage.tree.saveAll (saves actions)).2,
          ⟨(stage.tree.saveAll (saves actions)).1, stage.installed, lines⟩) ∧
      ((stage.tree.saveAll (saves actions)).2 = .ok () →
        printedLines lines = printedLines stage.lines ++ prints actions) := by
  induction actions generalizing stage with
  | nil => exact ⟨stage.lines, rfl, fun _ => (List.append_nil _).symm⟩
  | cons action rest ih =>
      cases action with
      | print line =>
          obtain ⟨lines, ran, shown⟩ := ih { stage with lines := stage.lines.push (.printed line) }
          refine ⟨lines, (perform_print debug rest stage line).trans ran, fun done => ?_⟩
          rw [shown done, printedLines_push, List.append_assoc]
          rfl
      | note level text =>
          obtain ⟨tree, installed, kept⟩ := printedLines_ite_note debug level text stage
          obtain ⟨lines, ran, shown⟩ := ih (if debug || level ≠ .debug then
            { stage with lines := stage.lines.push (.note level text) } else stage)
          rw [← perform_note, tree, installed] at ran
          rw [tree, kept] at shown
          exact ⟨lines, ran, shown⟩
      | save name raster =>
          have one : saves (.save name raster :: rest) = (name, raster) :: saves rest := rfl
          rw [perform_save, one, Files.Tree.saveAll]
          cases saved : stage.tree.save name raster with
          | mk tree result =>
              cases result with
              | error cause => exact ⟨stage.lines, rfl, fun done => by cases done⟩
              | ok _ => exact ih { stage with tree }

/-! ## Whole runs -/

/-- A script comes out as it says if nothing goes wrong with its pictures. -/
theorem run_runScript (debug : Bool) (s : Script) (stage : Stage) :
    (runScript debug s : Step Rehearsal Nat).run.run stage =
      match (perform debug s.actions : Rehearsal _).run stage with
      | (.error cause, after) => (.error (.picture cause), after)
      | (.ok (), after) => (s.outcome.mapError .entry, after) := by
  unfold runScript outside
  rw [ExceptT.run_bind, StateT.run_bind, ExceptT.run_lift, StateT.run_map]
  rcases (perform debug s.actions : Rehearsal _).run stage with ⟨_ | _, after⟩
  · rfl
  · cases s.outcome <;> rfl

variable {a : Arguments} (settings : Settings) (speed : Speed) (listing : String)
  (entries : List Listing.Entry) (stage : Stage)

/-- Where no pictures are asked for, the commands of the drawings are printed. -/
theorem run_drawEntries_of_none (text : a.png = none) :
    (drawEntries a settings speed listing entries : Step Rehearsal Nat).run.run stage =
      (runScript a.debug (dump ⟨.empty, speed, settings.style.dotSize⟩ entries) :
        Step Rehearsal Nat).run.run stage := by
  unfold drawEntries script
  rw [text]
  rfl

/-- Pictures are saved behind making their directory and a blank picture. -/
theorem run_drawEntries_of_some {directory : String} (png : a.png = some directory) :
    (drawEntries a settings speed listing entries : Step Rehearsal Nat).run.run stage =
      match stage.tree.makeDirectories directory with
      | (made, .error cause) => (.error (.directory cause), { stage with tree := made })
      | (made, .ok ()) =>
        match script a settings speed listing entries with
        | .error cause => (.error (.size cause), { stage with tree := made })
        | .ok s =>
          (runScript a.debug s : Step Rehearsal Nat).run.run { stage with tree := made } := by
  have ran : (Host.makeDirectories directory : Rehearsal _).run stage =
      ((stage.tree.makeDirectories directory).2,
        { stage with tree := (stage.tree.makeDirectories directory).1 }) := rfl
  unfold drawEntries outside
  rw [png]
  dsimp only
  rw [ExceptT.run_bind, StateT.run_bind, ExceptT.run_lift, StateT.run_map, ran]
  rcases stage.tree.makeDirectories directory with ⟨made, _ | _⟩
  · rfl
  · cases script a settings speed listing entries <;> rfl

end CommandLine

end PenDrawing
