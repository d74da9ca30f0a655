import PenDrawing.Proofs.CommandLine.Blocks
import PenDrawing.Proofs.Decimal.Reading
import PenDrawing.Proofs.Decimal.Single

/-!
# What was printed is read back

Nothing of a drawing is lost in its lines.  The route:

* a coordinate is a hundredth of its point, rounded; it is off by so little that the two decimals of
  its text are those of the hundredth itself (**`coordinateText_toWorld`**);
* so a line that lifts the pen or moves it is read as its point (**`readLine?`**), and all other
  lines are read as none: a drawn point is never read as one that lifts the pen, which is the
  origin;
* a block is read as the points of its drawing (`filterMap_block`), and what a run prints, cut where
  the drawings are cleared away, as its drawings one by one (`readDrawings_flatMap`).
-/

namespace PenDrawing

open Decimal

/-! ## Coordinates -/

/-- The number of points in a unit, taken apart. -/
theorem unpack_pointsPerUnit :
    ∃ h, pointsPerUnit.toModel.unpack = .finite .positive (100 * 2 ^ 17) (-17) h :=
  ⟨by decide, rfl⟩

/-- A share of a unit is off by no more than one in its last place, which is `k` places behind the
point. -/
theorem exists_unpack_toWorld {n : UInt16} (pos : 0 < n.toNat) :
    ∃ r k : Nat, ∃ h : Normal r,
      (n.toFloat32 / pointsPerUnit).toModel.unpack = .finite .positive r (-(k : Int)) h.pos ∧
      r * 100 ≤ n.toNat * 2 ^ k + 100 ∧ n.toNat * 2 ^ k ≤ r * 100 + 100 := by
  have small : n.toNat < 2 ^ 16 := n.toNat_lt
  obtain ⟨_, unit⟩ := unpack_pointsPerUnit
  have whole := unpack_ofNat pos (Nat.lt_trans small (by decide))
  have bits := (Nat.log2_lt (Nat.ne_of_gt pos)).mpr small
  have short : 8 ≤ room n.toNat ∧ room n.toNat ≤ 23 := by
    rw [room]
    omega
  obtain ⟨r, k, h, quotient, few, low, high⟩ := exists_unpack_div
    (normal_shiftLeft pos (Nat.lt_trans small (by decide))) ⟨by decide, by decide⟩ whole unit
    (by omega) (by omega)
  obtain ⟨j, places⟩ := Nat.exists_eq_add_of_le (show k ≤ room n.toNat + 7 by omega)
  -- both sides in units of the lowest bit that was computed
  have units : n.toNat * 2 ^ room n.toNat * 2 ^ 24 = n.toNat * 2 ^ j * (2 ^ k * 2 ^ 17) := by
    rw [Nat.mul_assoc, ← Nat.pow_add, Nat.mul_assoc, ← Nat.pow_add, ← Nat.pow_add]
    congr 2
    omega
  have unitPos : 0 < 2 ^ k * 2 ^ 17 := Nat.mul_pos (Nat.two_pow_pos k) (by decide)
  refine ⟨r, j, h, quotient.trans ?_, ?_, ?_⟩
  · congr 1
    omega
  · refine Nat.le_of_mul_le_mul_right ?_ unitPos
    calc r * 100 * (2 ^ k * 2 ^ 17) = r * 2 ^ k * (100 * 2 ^ 17) := by ring
      _ ≤ n.toNat * 2 ^ room n.toNat * 2 ^ 24 + 2 ^ k * (100 * 2 ^ 17) := low
      _ = (n.toNat * 2 ^ j + 100) * (2 ^ k * 2 ^ 17) := by
          rw [units]
          ring
  · refine Nat.le_of_mul_le_mul_right ?_ unitPos
    calc n.toNat * 2 ^ j * (2 ^ k * 2 ^ 17) = n.toNat * 2 ^ room n.toNat * 2 ^ 24 := units.symm
      _ ≤ r * 2 ^ k * (100 * 2 ^ 17) + 2 ^ k * (100 * 2 ^ 17) := high
      _ = (r * 100 + 100) * (2 ^ k * 2 ^ 17) := by ring

/-- **A coordinate is written as the hundredths that it is.** -/
theorem coordinateText_toWorld (n : UInt16) :
    Command.coordinateText (n.toFloat32 / pointsPerUnit) = placed 2 n.toNat := by
  by_cases none : n = 0
  · rw [none]
    decide +kernel
  · have pos : 0 < n.toNat := Nat.pos_of_ne_zero fun zero => none (UInt16.toNat_inj.mp zero)
    have small : n.toNat < 2 ^ 16 := n.toNat_lt
    obtain ⟨r, k, h, share, low, high⟩ := exists_unpack_toWorld pos
    have normal := h.low
    -- the mantissa has 24 bits and the grid only 16: there are more than 200 shares to a hundredth
    have fine : 2 * 100 < 2 ^ k := by
      by_contra coarse
      have scaled := Nat.mul_le_mul (Nat.le_of_lt small) (Nat.le_of_not_lt coarse)
      omega
    have exact : Exact.ofSingle (n.toFloat32 / pointsPerUnit) = .finite false r (-(k : Int)) := by
      rw [Exact.ofSingle, share]
      rfl
    have places : 0 < k := Nat.pos_of_ne_zero fun zero => by
      rw [zero] at fine
      exact absurd fine (by decide)
    rw [Command.coordinateText, exact, fixed, scaled_eq (n := n.toNat) places]
    · exact String.empty_append
    · show _ < 2 * (r * 100) + _
      omega
    · show 2 * (r * 100) < _
      omega

namespace CommandLine

/-! ## Lines -/

/-- A point by its exact coordinates. -/
def exactPoint (p : Point) : ℚ × ℚ := (p.x.toNat, p.y.toNat)

/-- Points of the grid are told apart by the places that they stand for. -/
theorem exactPoint_injective : Function.Injective exactPoint := by
  intro p q same
  obtain ⟨x, y⟩ := Prod.mk.inj same
  have column : p.x = q.x := UInt16.toNat_inj.mp (Nat.cast_injective x)
  have row : p.y = q.y := UInt16.toNat_inj.mp (Nat.cast_injective y)
  cases p
  cases q
  exact Point.mk.injEq .. ▸ ⟨column, row⟩

/-- The point that a line stands for, if it stands for one.  Lifting the pen is the origin; a move is
a hundred times the place it goes to. -/
def readLine? (line : String) : Option (ℚ × ℚ) :=
  if line = "pen-up" then some (0, 0)
  else if begins "move-to " line then
    match (line.toList.drop "move-to ".length).splitOn ' ' with
    | [x, y] => do
      let x ← read? x
      let y ← read? y
      some (100 * x, 100 * y)
    | _ => none
  else none

/-- Lines that begin with neither word are read as no point. -/
theorem readLine?_of_head? {line : String} {c : Char} (first : line.toList.head? = some c)
    (lift : 'p' ≠ c) (move : 'm' ≠ c) : readLine? line = none := by
  have other : line ≠ "pen-up" := fun same => by
    rw [same] at first
    exact lift (Option.some.inj first)
  have still : ¬ begins "move-to " line = true := by
    rw [begins_of_head? rfl first move]
    exact Bool.false_ne_true
  rw [readLine?, if_neg other, if_neg still]

/-- A move to two numbers without blanks is read by reading them. -/
theorem readLine?_of_letters {line : String} {x y : List Char}
    (letters : line.toList = "move-to ".toList ++ (x ++ ' ' :: y)) (left : ' ' ∉ x)
    (right : ' ' ∉ y) :
    readLine? line =
      (do
        let column ← read? x
        let row ← read? y
        some (100 * column, 100 * row)) := by
  have moves : begins "move-to " line = true := by
    rw [begins, letters, List.isPrefixOf_iff_prefix]
    exact List.prefix_append _ _
  have other : line ≠ "pen-up" := fun same => by
    rw [same] at moves
    revert moves
    decide
  have behind : line.toList.drop "move-to ".length = x ++ ' ' :: y := by
    rw [letters]
    exact List.drop_left
  rw [readLine?, if_neg other, if_pos moves, behind,
    List.splitOn_append_cons_self_of_not_mem left, List.splitOn_eq_singleton right]

/-- A move is read as the point that it goes to. -/
theorem readLine?_moveTo (p : Point) :
    readLine? s!"move-to {Command.coordinateText p.toWorld.x} {Command.coordinateText p.toWorld.y}"
      = some (exactPoint p) := by
  have x : Command.coordinateText p.toWorld.x = placed 2 p.x.toNat := coordinateText_toWorld p.x
  have y : Command.coordinateText p.toWorld.y = placed 2 p.y.toNat := coordinateText_toWorld p.y
  have letters :
      (s!"move-to {placed 2 p.x.toNat} {placed 2 p.y.toNat}").toList =
        "move-to ".toList ++
          ((placed 2 p.x.toNat).toList ++ ' ' :: (placed 2 p.y.toNat).toList) := by
    simp only [String.toList_append, List.append_assoc]
    rfl
  have noBlank (n : Nat) : ' ' ∉ (placed 2 n).toList := not_mem_placed rfl (by decide) 2 n
  rw [x, y, readLine?_of_letters letters (noBlank _) (noBlank _)]
  simp only [read?_placed, Option.bind_eq_bind, Option.bind_some]
  refine congrArg some (Prod.ext ?_ ?_)
  · show 100 * ((p.x.toNat : ℚ) / 10 ^ 2) = p.x.toNat
    ring
  · show 100 * ((p.y.toNat : ℚ) / 10 ^ 2) = p.y.toNat
    ring

/-- The lines of a point are read as that point. -/
theorem filterMap_pointLines (dotSize : Float32) (p : Point) :
    (pointLines dotSize p).filterMap readLine? = [exactPoint p] := by
  rw [pointLines]
  by_cases up : p = .penUp
  · rw [if_pos up, up]
    rfl
  · have dot : readLine? s!"dot {Command.sizeText dotSize}" = none :=
      readLine?_of_head? (c := 'd') (by rw [String.toList_append]; rfl) (by decide) (by decide)
    rw [if_neg up, List.filterMap_cons_some (readLine?_moveTo p), List.filterMap_cons_none dot]
    rfl

/-! ## Blocks -/

/-- **A block is read as the points of its drawing.** -/
theorem filterMap_block (speed : Speed) (dotSize : Float32) (kind : Listing.Kind) (path : Path) :
    (block speed dotSize kind path).filterMap readLine? = path.points.map exactPoint := by
  have heading :
      readLine? s!"# {kind.name} ({path.length} points, {path.strokes.length} strokes)" = none :=
    readLine?_of_head? (head?_heading kind path) (by decide) (by decide)
  have speeds : readLine? s!"speed {speed.text}" = none :=
    readLine?_of_head? (head?_speed speed) (by decide) (by decide)
  have world : readLine? "world (0.00, 655.36) (655.36, 0.00)" = none := rfl
  have clear : readLine? "clear" = none := rfl
  have points : (path.points.flatMap (pointLines dotSize)).filterMap readLine? =
      path.points.map exactPoint := by
    rw [List.filterMap_flatMap, funext (filterMap_pointLines dotSize), List.map_eq_flatMap]
  rw [block, List.filterMap_append, List.filterMap_append, List.filterMap_cons_none heading,
    List.filterMap_cons_none clear]
  by_cases none : path.points = []
  · rw [if_pos none, none]
    rfl
  · rw [if_neg none, List.filterMap_append, List.filterMap_cons_none speeds,
      List.filterMap_cons_none world, points]
    simp

/-- Drawings with the same block are the same, whatever they are attached to and however they are
drawn. -/
theorem path_eq_of_block_eq {speed speed' : Speed} {dotSize dotSize' : Float32}
    {kind kind' : Listing.Kind} {path path' : Path}
    (same : block speed dotSize kind path = block speed' dotSize' kind' path') : path = path' := by
  have read := congrArg (List.filterMap readLine?) same
  rw [filterMap_block, filterMap_block] at read
  have points := (List.map_injective_iff.mpr exactPoint_injective) read
  cases path
  cases path'
  exact congrArg Path.mk points

/-! ## Runs -/

/-- The drawings that the lines of a run stand for, each by its points.  Every drawing ends with
being cleared away. -/
def readDrawings (lines : List String) : List (List (ℚ × ℚ)) :=
  (lines.splitOn "clear").dropLast.map (List.filterMap readLine?)

/-- The first block of some lines is read as its drawing, and the other ones as before. -/
theorem readDrawings_block_append (speed : Speed) (dotSize : Float32) (kind : Listing.Kind)
    (path : Path) (rest : List String) :
    readDrawings (block speed dotSize kind path ++ rest) =
      path.points.map exactPoint :: readDrawings rest := by
  obtain ⟨body, parts, others⟩ := exists_block_eq speed dotSize kind path
  have read := filterMap_block speed dotSize kind path
  have inside : "clear" ∉ body := fun mem => others _ mem rfl
  rw [parts, List.filterMap_append, List.filterMap_cons_none rfl, List.filterMap_nil,
    List.append_nil] at read
  rw [readDrawings, parts, List.append_assoc, List.singleton_append,
    List.splitOn_append_cons_self_of_not_mem inside,
    List.dropLast_cons_of_ne_nil (List.splitOn_ne_nil _ _), List.map_cons, read]
  rfl

/-- **One block after another is read as one drawing after another.** -/
theorem readDrawings_flatMap (speed : Speed) (dotSize : Float32)
    (drawings : List (Listing.Kind × Path)) :
    readDrawings (drawings.flatMap fun drawing => block speed dotSize drawing.1 drawing.2) =
      drawings.map fun drawing => drawing.2.points.map exactPoint := by
  induction drawings with
  | nil => rfl
  | cons drawing rest ih =>
      rw [List.flatMap_cons, readDrawings_block_append, ih, List.map_cons]

/-- **What a run prints is read back as what it was given**: the lines that it adds are one block
for each drawing, and are read as the drawings of the listing one by one.  In each block the lines
that lift the pen and those that move it are read as exactly the points of its drawing, and drawings
with the same block are the same. -/
theorem read_run_dump (a : Arguments) (settings : Settings) (speed : Speed) (listing : String)
    (entries : List Listing.Entry) (stage : Stage) (commands : a.png = none) :
    let lines := block speed settings.style.dotSize
    let printed := (drawings entries).flatMap fun drawing => lines drawing.1 drawing.2
    ∃ outcome after,
      (drawEntries a settings speed listing entries : Step Rehearsal Nat).run.run stage =
        (outcome, after) ∧
      printedLines after.lines = printedLines stage.lines ++ printed ∧
      readDrawings printed = (drawings entries).map (fun drawing =>
        drawing.2.points.map exactPoint) ∧
      ∀ kind path,
        (lines kind path).filterMap readLine? = path.points.map exactPoint ∧
        ∀ speed' dotSize' kind' path',
          lines kind path = block speed' dotSize' kind' path' → path = path' := by
  intro lines printed
  obtain ⟨after, ran, -, shown⟩ := exists_run_dump commands settings speed listing entries stage
  refine ⟨_, after, ran, shown, readDrawings_flatMap _ _ _, ?_⟩
  intro kind path
  exact ⟨filterMap_block _ _ kind path, fun _ _ _ _ => path_eq_of_block_eq⟩

/-- Two strokes, from one end of the grid to the other, and a drawing behind them. -/
theorem read_run_dump_two_drawings :
    let first : Path := ⟨[⟨1, 1⟩, .penUp, ⟨65535, 0⟩]⟩
    let second : Path := ⟨[⟨0, 65535⟩]⟩
    ∃ source outcome after,
      Listing.exportedSource Zlib.store
        [⟨.comment, 1, first, fun _ => [], []⟩, ⟨.comment, 1, second, fun _ => [], []⟩] =
          .ok source ∧
      (drawEntries .none .standard .fastest "drawing.txt" (Listing.entries source) :
        Step Rehearsal Nat).run.run ⟨.empty, none, #[]⟩ = (outcome, after) ∧
      readDrawings (printedLines after.lines) =
        [[(1, 1), (0, 0), (65535, 0)], [(0, 65535)]] := by
  intro first second
  obtain ⟨source, made, all, -⟩ := exists_listing_of_lines
    [(.comment, 1, first), (.comment, 1, second)] (List.cons_ne_nil _ _) (by decide)
  obtain ⟨outcome, after, ran, printed, read, -⟩ := read_run_dump .none .standard .fastest
    "drawing.txt" (Listing.entries source) ⟨.empty, none, #[]⟩ rfl
  refine ⟨source, outcome, after, made, ran, ?_⟩
  rw [printed]
  refine read.trans ?_
  rw [all]
  simp [first, second, exactPoint, Point.penUp]

end CommandLine

end PenDrawing
