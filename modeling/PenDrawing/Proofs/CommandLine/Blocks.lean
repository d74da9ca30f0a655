import PenDrawing.Proofs.CommandLine.Performed
import PenDrawing.Proofs.Listing.RoundTrip
import PenDrawing.Proofs.Surface.Recorded
import Mathlib.Tactic.Common

/-!
# What a run prints for each drawing

All drawings of a listing go through one recording, which is emptied after each of them.  The route:

* a renderer whose recording is empty comes back as it was (`recordPath_empty`), so the lines of a
  drawing depend on nothing but the drawing, the speed and the size of dots (**`block`**);
* the script of a listing is one block after another, up to the first entry that is no drawing
  (`says_dump`);
* between the lines that lift the pen a block holds the lines of its strokes, one run for each
  (`runs_block`).

`exists_run_dump` carries this over to a run, and `run_dump` says what it prints and how it comes
out.
-/

namespace PenDrawing.CommandLine

/-! ## Blocks -/

/-- The lines of a point: the pen is lifted, or moved and a dot made. -/
def pointLines (dotSize : Float32) (p : Point) : List String :=
  if p = .penUp then ["pen-up"]
  else
    [s!"move-to {Command.coordinateText p.toWorld.x} {Command.coordinateText p.toWorld.y}",
      s!"dot {Command.sizeText dotSize}"]

/-- The lines of a drawing. -/
def block (speed : Speed) (dotSize : Float32) (kind : Listing.Kind) (path : Path) : List String :=
  [s!"# {kind.name} ({path.length} points, {path.strokes.length} strokes)"] ++
    (if path.points = [] then []
    else
      [s!"speed {speed.text}", "world (0.00, 655.36) (655.36, 0.00)"] ++
        path.points.flatMap (pointLines dotSize)) ++
    ["clear"]

/-- A line begins with a word. -/
def begins (word line : String) : Bool := word.toList.isPrefixOf line.toList

/-- The line of a move or of a dot. -/
def isMark (line : String) : Bool := begins "move-to " line || begins "dot " line

theorem begins_append (word rest : String) : begins word (word ++ rest) = true := by
  rw [begins, List.isPrefixOf_iff_prefix, String.toList_append]
  exact List.prefix_append _ _

/-- Words are told apart by their first letters. -/
theorem begins_of_head? {word line : String} {a b : Char} (letter : word.toList.head? = some a)
    (first : line.toList.head? = some b) (other : a ≠ b) : begins word line = false := by
  obtain ⟨as, word⟩ := List.head?_eq_some_iff.mp letter
  obtain ⟨bs, line⟩ := List.head?_eq_some_iff.mp first
  rw [begins, word, line, Bool.eq_false_iff, ne_eq, List.isPrefixOf_iff_prefix]
  exact fun h => other (List.cons_prefix_cons.mp h).1

theorem isMark_of_head? {line : String} {c : Char} (first : line.toList.head? = some c)
    (move : 'm' ≠ c) (dot : 'd' ≠ c) : isMark line = false := by
  rw [isMark, begins_of_head? rfl first move, begins_of_head? rfl first dot]
  rfl

/-- The lines of a drawn point are a move and a dot. -/
theorem pointLines_of_penDown (dotSize : Float32) {p : Point} (down : p.isPenUp = false) :
    ∃ place, pointLines dotSize p =
      ["move-to " ++ place, "dot " ++ Command.sizeText dotSize] := by
  have drawn : p ≠ .penUp := fun up => by
    rw [p.isPenUp_iff.mpr up] at down
    cases down
  rw [pointLines, if_neg drawn]
  refine ⟨Command.coordinateText p.toWorld.x ++ (" " ++ Command.coordinateText p.toWorld.y), ?_⟩
  rw [← String.append_assoc, ← String.append_assoc]
  rfl

/-- Of a point that lifts the pen there is one line. -/
theorem pointLines_of_penUp (dotSize : Float32) {p : Point} (up : p.isPenUp = true) :
    pointLines dotSize p = ["pen-up"] := by
  rw [pointLines, if_pos (p.isPenUp_iff.mp up)]

/-- The lines of a point where the pen is down make marks. -/
theorem isMark_of_mem_pointLines {dotSize : Float32} {p : Point} (down : p.isPenUp = false) :
    ∀ line ∈ pointLines dotSize p, isMark line = true := by
  obtain ⟨place, lines⟩ := pointLines_of_penDown dotSize down
  intro line mem
  rw [lines, List.mem_cons, List.mem_singleton] at mem
  rcases mem with rfl | rfl
  · rw [isMark, begins_append]
    rfl
  · rw [isMark, begins_append, Bool.or_true]

/-! ## One run for each stroke -/

/-- The lines of drawn points are a run of their own, up to a line that lifts the pen or ends the
block. -/
theorem runs_pointLines (dotSize : Float32) {p : Point} {ps : List Point}
    (down : ∀ q ∈ p :: ps, q.isPenUp = false) {line : String} (rest : List String)
    (ends : isMark line = false) :
    Text.runs isMark ((p :: ps).flatMap (pointLines dotSize) ++ line :: rest) =
      (p :: ps).flatMap (pointLines dotSize) :: Text.runs isMark (line :: rest) := by
  have marks : ∀ l ∈ (p :: ps).flatMap (pointLines dotSize), isMark l = true := by
    intro l mem
    obtain ⟨q, drawn, said⟩ := List.mem_flatMap.mp mem
    exact isMark_of_mem_pointLines (down q drawn) l said
  have nonempty : (p :: ps).flatMap (pointLines dotSize) ≠ [] := by
    obtain ⟨place, lines⟩ := pointLines_of_penDown dotSize (down p List.mem_cons_self)
    rw [List.flatMap_cons, lines]
    exact List.cons_ne_nil _ _
  rw [Text.runs_append_cons _ rest ends, Text.runs_of_forall nonempty marks,
    Text.runs_cons rest ends]
  rfl

/-- What comes after a stroke begins with no mark. -/
theorem exists_line_after_stroke (dotSize : Float32) (ps : List Point) :
    ∃ line rest, isMark line = false ∧
      (ps.dropWhile (!·.isPenUp)).flatMap (pointLines dotSize) ++ ["clear"] = line :: rest := by
  cases left : ps.dropWhile (!·.isPenUp) with
  | nil => exact ⟨"clear", [], by decide, rfl⟩
  | cons p rest =>
      have up : p.isPenUp = true := by
        have stopped := List.head?_dropWhile_not (!·.isPenUp) ps
        rw [left] at stopped
        simpa using stopped
      refine ⟨"pen-up", rest.flatMap (pointLines dotSize) ++ ["clear"], by decide, ?_⟩
      rw [List.flatMap_cons, pointLines_of_penUp dotSize up]
      rfl

/-- The runs of lines that make marks are the strokes, point by point. -/
theorem runs_points (dotSize : Float32) (ps : List Point) :
    Text.runs isMark (ps.flatMap (pointLines dotSize) ++ ["clear"]) =
      (Path.strokesOf ps).map (·.flatMap (pointLines dotSize)) := by
  induction ps using Path.strokesOf.induct with
  | case1 =>
      rw [Path.strokesOf_nil]
      exact Text.runs_cons [] (by decide)
  | case2 p rest up ih =>
      rw [Path.strokesOf_penUp rest up, List.flatMap_cons, pointLines_of_penUp dotSize up, ← ih]
      exact Text.runs_cons _ (by decide)
  | case3 p rest down ih =>
      have down := eq_false_of_ne_true down
      obtain ⟨line, lines, ends, later⟩ := exists_line_after_stroke dotSize rest
      have stroke : ∀ q ∈ p :: rest.takeWhile (!·.isPenUp), q.isPenUp = false := by
        intro q mem
        rcases List.mem_cons.mp mem with rfl | inside
        · exact down
        · simpa using List.all_eq_true.mp List.all_takeWhile q inside
      -- the lines of the stroke, and then the first line behind it
      have parts : (p :: rest).flatMap (pointLines dotSize) ++ ["clear"] =
          (p :: rest.takeWhile (!·.isPenUp)).flatMap (pointLines dotSize) ++ line :: lines := by
        rw [← later, ← List.append_assoc, ← List.flatMap_append, List.cons_append,
          List.takeWhile_append_dropWhile]
      rw [parts, runs_pointLines dotSize stroke lines ends, ← later, ih,
        Path.strokesOf_penDown rest down]
      rfl

/-- The first letters of a heading. -/
theorem head?_heading (kind : Listing.Kind) (path : Path) :
    (heading kind path).toList.head? = some '#' := by
  simp only [heading, String.toList_append]
  rfl

theorem head?_speed (speed : Speed) : s!"speed {speed.text}".toList.head? = some 's' := by
  simp only [String.toList_append]
  rfl

/-- **The runs of moves and dots in a block are the strokes of its drawing.** -/
theorem runs_block (speed : Speed) (dotSize : Float32) (kind : Listing.Kind) (path : Path) :
    Text.runs isMark (block speed dotSize kind path) =
      path.strokes.map (·.flatMap (pointLines dotSize)) := by
  have heading : isMark
      s!"# {kind.name} ({path.length} points, {path.strokes.length} strokes)" = false :=
    isMark_of_head? (head?_heading kind path) (by decide) (by decide)
  have speeds : isMark s!"speed {speed.text}" = false :=
    isMark_of_head? (head?_speed speed) (by decide) (by decide)
  rw [block, List.append_assoc, List.singleton_append, Text.runs_cons _ heading, Path.strokes,
    ← runs_points]
  by_cases none : path.points = []
  · rw [if_pos none, none]
    rfl
  · rw [if_neg none, List.append_assoc, List.cons_append, Text.runs_cons _ speeds]
    exact Text.runs_cons _ (by decide)

/-- No line of a point begins like the line that ends a drawing. -/
theorem head?_ne_of_mem_pointLines {dotSize : Float32} {p : Point} :
    ∀ line ∈ pointLines dotSize p, line.toList.head? ≠ some 'c' := by
  intro line mem
  cases up : p.isPenUp with
  | true =>
      rw [pointLines_of_penUp dotSize up, List.mem_singleton] at mem
      rw [mem]
      decide
  | false =>
      intro first
      have marks := isMark_of_mem_pointLines up line mem
      rw [isMark_of_head? first (by decide) (by decide)] at marks
      cases marks

/-- **A block ends with clearing**, and no line before that begins as the one that clears or the one
that ends the session. -/
theorem exists_block_eq (speed : Speed) (dotSize : Float32) (kind : Listing.Kind) (path : Path) :
    ∃ body, block speed dotSize kind path = body ++ ["clear"] ∧
      ∀ line ∈ body, line.toList.head? ≠ some 'c' := by
  refine ⟨_, rfl, ?_⟩
  intro line mem
  rcases List.mem_append.mp mem with first | later
  · rw [List.mem_singleton.mp first]
    exact fun c => absurd ((head?_heading kind path).symm.trans c) (by decide)
  · by_cases none : path.points = []
    · rw [if_pos none] at later
      cases later
    · rw [if_neg none, List.cons_append, List.cons_append, List.nil_append, List.mem_cons,
        List.mem_cons, List.mem_flatMap] at later
      rcases later with rfl | rfl | ⟨p, -, said⟩
      · rw [head?_speed speed]
        decide
      · decide
      · exact head?_ne_of_mem_pointLines line said

/-- No line of a block ends the session. -/
theorem close_not_mem_block (speed : Speed) (dotSize : Float32) (kind : Listing.Kind)
    (path : Path) : "close" ∉ block speed dotSize kind path := by
  obtain ⟨body, parts, others⟩ := exists_block_eq speed dotSize kind path
  rw [parts, List.mem_append, List.mem_singleton]
  rintro (inside | last)
  · exact others _ inside rfl
  · revert last
    decide

/-! ## The script of a listing -/

/-- The text of the world that paths are drawn in. -/
theorem text_setWorld_program :
    Command.text (.setWorld .program) = "world (0.00, 655.36) (655.36, 0.00)" := by
  decide +kernel

/-- The commands of a point are written as its lines. -/
theorem text_pointCommands (dotSize : Float32) (p : Point) :
    (pointCommands dotSize p).map Command.text = pointLines dotSize p := by
  rw [pointCommands_eq, pointLines]
  by_cases up : p = .penUp
  · rw [if_pos up, if_pos up]
    rfl
  · rw [if_neg up, if_neg up]
    rfl

/-- What a drawing tells its surface, clearing included, is written out below its heading. -/
theorem block_eq (speed : Speed) (dotSize : Float32) (kind : Listing.Kind) (path : Path) :
    block speed dotSize kind path =
      heading kind path ::
        (pathCommands speed dotSize path ++ [Command.clear]).map Command.text := by
  have points : (path.points.flatMap (pointCommands dotSize)).map Command.text =
      path.points.flatMap (pointLines dotSize) := by
    rw [List.map_flatMap, funext (text_pointCommands dotSize)]
  rw [List.map_append, pathCommands, block]
  by_cases none : path.points = []
  · have empty : path.isEmpty = true := List.isEmpty_iff.mpr none
    rw [if_pos none, if_pos empty]
    rfl
  · have some : ¬ path.isEmpty = true := fun empty => none (List.isEmpty_iff.mp empty)
    rw [if_neg none, if_neg some, List.map_cons, List.map_cons, points, text_setWorld_program]
    rfl

/-- A recording that was emptied is emptied again, and the renderer is as it was. -/
theorem recordPath_empty (speed : Speed) (dotSize : Float32) (path : Path) :
    (recordPath ⟨.empty, speed, dotSize⟩ path).1.toList =
      pathCommands speed dotSize path ++ [.clear] ∧
    (recordPath ⟨.empty, speed, dotSize⟩ path).2 = ⟨.empty, speed, dotSize⟩ := by
  refine ⟨?_, rfl⟩
  show (Surface.apply (applyAll Recording.empty (pathCommands speed dotSize path))
    .clear).commands.toList = _
  rw [Recording.toList_apply, Recording.toList_applyAll]
  rfl

/-- What a script prints, saves, and comes out as. -/
structure Script.Says (s : Script) (lines : List String) (outcome : Except EntryError Nat) :
    Prop where
  prints : prints s.actions = lines
  saves : saves s.actions = []
  outcome : s.outcome = outcome

/-- Reading an entry prints nothing. -/
theorem prints_readEntry (entry : Listing.Entry) : prints (readEntry entry).1 = [] := by
  rw [readEntry]
  cases Payload.unpack entry.payload with
  | error cause => rfl
  | ok unpacked => rfl

/-- Reading an entry decodes it, and makes notes that neither print nor save. -/
theorem exists_silent_notes {entry : Listing.Entry} {result : Except DecodeError Path}
    (h : entry.decode = result) :
    ∃ notes, readEntry entry = (notes, result) ∧ saves notes = [] ∧ prints notes = [] := by
  obtain ⟨notes, read, saved⟩ := exists_notes h
  have printed := prints_readEntry entry
  rw [read] at printed
  exact ⟨notes, read, saved, printed⟩

theorem saves_map_print (commands : List Command) :
    saves (commands.map (.print ·.text)) = [] := by
  rw [saves, List.filterMap_map, List.filterMap_eq_nil_iff]
  exact fun _ _ => rfl

/-- Commands are printed each in a line of its own. -/
theorem prints_map_print (commands : List Command) :
    prints (commands.map (.print ·.text)) = commands.map Command.text := by
  rw [prints, List.filterMap_map, ← List.filterMap_eq_map]
  rfl

section

variable (speed : Speed) (dotSize : Float32) {entry : Listing.Entry} (rest : List Listing.Entry)

/-- An entry that is no drawing is the last one that is read, and nothing is printed for it. -/
theorem says_dump_of_error {cause : DecodeError} (h : entry.decode = .error cause) :
    (dump ⟨.empty, speed, dotSize⟩ (entry :: rest)).Says [] (.error ⟨entry.kind, cause⟩) := by
  obtain ⟨notes, read, saved, printed⟩ := exists_silent_notes h
  rw [dump, read]
  exact ⟨printed, saved, rfl⟩

/-- A drawing prints its block, and counts if it has points. -/
theorem says_dump_of_ok {path : Path} (h : entry.decode = .ok path) {lines : List String}
    {outcome : Except EntryError Nat}
    (later : (dump ⟨.empty, speed, dotSize⟩ rest).Says lines outcome) :
    (dump ⟨.empty, speed, dotSize⟩ (entry :: rest)).Says
      (block speed dotSize entry.kind path ++ lines)
      (outcome.map ((if path.isEmpty then 0 else 1) + ·)) := by
  obtain ⟨notes, read, saved, printed⟩ := exists_silent_notes h
  obtain ⟨told, handed⟩ := recordPath_empty speed dotSize path
  rw [dump, read]
  dsimp only
  rw [told, handed]
  refine ⟨?_, ?_, ?_⟩
  · rw [Script.after, prints_append, prints_append, prints_append, printed, prints_map_print,
      later.prints, block_eq]
    rfl
  · rw [Script.after, saves_append, saves_append, saves_append, saved, saves_map_print,
      later.saves]
    rfl
  · rw [Script.after, later.outcome]
    cases path.isEmpty <;> rfl

end

/-- **The script of a listing is one block after another**, up to the first entry that is no
drawing. -/
theorem says_dump (speed : Speed) (dotSize : Float32) (entries : List Listing.Entry) :
    (dump ⟨.empty, speed, dotSize⟩ entries).Says
      ((drawings entries).flatMap fun drawing => block speed dotSize drawing.1 drawing.2)
      (outcomeOf entries) := by
  -- the renderer is handed on as it came, so one renderer serves all entries
  induction entries with
  | nil => exact ⟨rfl, rfl, rfl⟩
  | cons entry rest ih =>
      rw [drawings]
      cases decoded : entry.decode with
      | error cause =>
          rw [outcomeOf_of_error rest decoded]
          exact says_dump_of_error speed dotSize rest decoded
      | ok path =>
          rw [outcomeOf_of_ok rest decoded]
          exact says_dump_of_ok speed dotSize rest decoded ih

/-! ## A whole run -/

/-- What a run without pictures comes out as and prints; no file changes. -/
theorem exists_run_dump {a : Arguments} (commands : a.png = none) (settings : Settings)
    (speed : Speed) (listing : String) (entries : List Listing.Entry) (stage : Stage) :
    ∃ after,
      (drawEntries a settings speed listing entries : Step Rehearsal Nat).run.run stage =
        ((outcomeOf entries).mapError .entry, after) ∧
      after.tree = stage.tree ∧
      printedLines after.lines = printedLines stage.lines ++
        (drawings entries).flatMap fun drawing =>
          block speed settings.style.dotSize drawing.1 drawing.2 := by
  have said := says_dump speed settings.style.dotSize entries
  obtain ⟨shown, performed, printed⟩ := exists_of_perform a.debug
    (dump ⟨.empty, speed, settings.style.dotSize⟩ entries).actions stage
  rw [said.saves] at performed printed
  have ran := (run_drawEntries_of_none settings speed listing entries stage commands).trans
    (run_runScript a.debug _ stage)
  rw [performed, said.outcome] at ran
  refine ⟨_, ran, rfl, ?_⟩
  rw [← said.prints]
  exact printed rfl

/-- **What a run prints**: the blocks of the drawings, in their order, up to the first entry that is
no drawing.  With that one the run fails, and says which it is and why; if there is none, it comes
out as the number of drawings with points.  No file changes, no block ends the session, and the
strokes that a block begins with are as many as its runs of moves and dots, each of which is a
stroke point by point. -/
theorem run_dump (a : Arguments) (settings : Settings) (speed : Speed) (listing : String)
    (source : List Char) (stage : Stage) (commands : a.png = none) :
    let entries := Listing.entries source
    let lines := block speed settings.style.dotSize
    ∃ outcome after,
      (drawEntries a settings speed listing entries : Step Rehearsal Nat).run.run stage =
        (outcome, after) ∧
      after.tree = stage.tree ∧
      printedLines after.lines = printedLines stage.lines ++
        (drawings entries).flatMap (fun drawing => lines drawing.1 drawing.2) ∧
      (match entries.findSome? failure? with
        | some failed => ∃ failure, outcome = .error failure ∧
            failure.message = s!"{failed.kind.name}: {failed.cause.message}"
        | none => outcome = .ok ((drawings entries).countP (!·.2.isEmpty))) ∧
      ∀ kind path,
        let marks := Text.runs isMark (lines kind path)
        "close" ∉ lines kind path ∧
        marks = path.strokes.map (·.flatMap (pointLines settings.style.dotSize)) ∧
        (lines kind path).head? =
          some s!"# {kind.name} ({path.length} points, {marks.length} strokes)" := by
  intro entries lines
  obtain ⟨after, ran, tree, printed⟩ :=
    exists_run_dump commands settings speed listing entries stage
  refine ⟨_, _, ran, tree, printed, ?_, ?_⟩
  · rw [outcomeOf]
    cases entries.findSome? failure? with
    | some failed => exact ⟨_, rfl, rfl⟩
    | none => rfl
  · intro kind path
    have strokes := runs_block speed settings.style.dotSize kind path
    refine ⟨close_not_mem_block _ _ kind path, strokes, ?_⟩
    rw [show Text.runs isMark (lines kind path) = _ from strokes, List.length_map]
    rfl

/-- A drawing of two strokes, and behind it one that begins like its second stroke. -/
theorem run_dump_two_drawings :
    let first : Path := ⟨[⟨100, 250⟩, .penUp, ⟨300, 4⟩]⟩
    let second : Path := ⟨[⟨300, 4⟩, ⟨500, 600⟩]⟩
    ∃ source after,
      Listing.exportedSource Zlib.store
        [⟨.comment, 7, first, fun _ => [], []⟩, ⟨.label, 2, second, fun _ => [], []⟩] =
          .ok source ∧
      (drawEntries .none .standard .fastest "drawing.txt" (Listing.entries source) :
        Step Rehearsal Nat).run.run ⟨.empty, none, #[]⟩ = (.ok 2, after) ∧
      printedLines after.lines =
        ["# comment-7 (3 points, 2 strokes)", "speed 10", "world (0.00, 655.36) (655.36, 0.00)",
          "move-to 1.00 2.50", "dot 10", "pen-up", "move-to 3.00 0.04", "dot 10", "clear",
          "# label-2 (2 points, 1 strokes)", "speed 10", "world (0.00, 655.36) (655.36, 0.00)",
          "move-to 3.00 0.04", "dot 10", "move-to 5.00 6.00", "dot 10", "clear"] := by
  intro first second
  obtain ⟨source, made, all, fine⟩ := exists_listing_of_lines
    [(.comment, 7, first), (.label, 2, second)] (List.cons_ne_nil _ _) (by decide)
  obtain ⟨outcome, after, ran, -, printed, came, -⟩ := run_dump .none .standard .fastest
    "drawing.txt" source ⟨.empty, none, #[]⟩ rfl
  rw [fine, all] at came
  rw [all] at printed
  refine ⟨source, after, made, ran.trans (congrArg (·, after) came), printed.trans ?_⟩
  decide +kernel

end PenDrawing.CommandLine
