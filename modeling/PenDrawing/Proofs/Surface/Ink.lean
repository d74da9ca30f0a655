import PenDrawing.Proofs.Surface.Replay

/-!
# What is inked

Whatever is drawn on a raster, the pixels of some cells become ink, and all others stay as they are.
Which cells these are is a matter of the marks and of the size of the raster, never of what is on it
already.  The route:

* a pixel of a painted raster is ink just if its cell was painted (`get?_paint`), so the order of the
  cells, and how often one of them is painted, do not matter (`paint_congr`);
* setting pixels that lie in the raster, one after another, paints them (`foldlM_set_eq_paint`);
* so dots and lines paint cells (`stamp_eq_paint`, `line_eq_paint`), and so do marks
  (`Mark.drawOn_eq_paint`, `draw_eq_paint`).
-/

namespace PenDrawing

namespace Raster

/-! ## Single pixels -/

/-- Pixels in different places of a raster are kept in different places. -/
theorem index_inj {width x y x' y' : Nat} (hx : x < width) (hx' : x' < width)
    (same : y * width + x = y' * width + x') : (x, y) = (x', y') := by
  have column : x = x' := by
    have rest := congrArg (· % width) same
    simpa only [Nat.mul_add_mod', Nat.mod_eq_of_lt hx, Nat.mod_eq_of_lt hx'] using rest
  have row : y = y' := by
    rw [column] at same
    exact Nat.eq_of_mul_eq_mul_right (Nat.zero_lt_of_lt hx) (Nat.add_right_cancel same)
  rw [column, row]

/-- Setting a pixel changes that pixel, and no other one. -/
theorem get?_of_set {r s : Raster} {x y : Nat} {p : Pixel} (h : r.set x y p = .ok s)
    (x' y' : Nat) : s.get? x' y' = if (x', y') = (x, y) then some p else r.get? x' y' := by
  rw [set] at h
  by_cases inside : x < r.width ∧ y < r.height
  · rw [dif_pos inside] at h
    obtain rfl := Except.ok.inj h
    rw [get?, get?]
    by_cases there : x' < r.width ∧ y' < r.height
    · rw [if_pos there, if_pos there, Array.getElem?_set]
      by_cases same : (x', y') = (x, y)
      · obtain ⟨rfl, rfl⟩ := Prod.mk.inj same
        rw [if_pos rfl, if_pos rfl]
      · rw [if_neg same, if_neg]
        exact fun index => same (index_inj there.1 inside.1 index.symm)
    · have other : (x', y') ≠ (x, y) := by
        rintro ⟨rfl, rfl⟩
        exact there inside
      rw [if_neg there, if_neg there, if_neg other]
  · rw [dif_neg inside] at h
    cases h

/-- Rasters of one size with the same pixels everywhere are the same. -/
theorem ext_get? {r s : Raster} (size : SameSize r s) (same : ∀ x y, r.get? x y = s.get? x y) :
    r = s := by
  obtain ⟨width, height, pixels, counted⟩ := r
  obtain ⟨width', height', pixels', counted'⟩ := s
  obtain ⟨rfl, rfl⟩ : width' = width ∧ height' = height := ⟨size.width, size.height⟩
  suffices pixels = pixels' by
    subst this
    rfl
  refine Array.ext (counted.trans counted'.symm) fun i bound bound' => ?_
  -- the pixel of an index stands in the column and the row that division gives
  have area : i < width' * height' := counted ▸ bound
  have wide : 0 < width' := Nat.pos_of_mul_pos_right (Nat.zero_lt_of_lt area)
  have column : i % width' < width' := Nat.mod_lt i wide
  have row : i / width' < height' := Nat.div_lt_of_lt_mul area
  have there := same (i % width') (i / width')
  rw [get?, get?, if_pos ⟨column, row⟩, if_pos ⟨column, row⟩] at there
  simp only [Nat.div_add_mod', Array.getElem?_eq_getElem bound,
    Array.getElem?_eq_getElem bound'] at there
  exact Option.some.inj there

/-! ## Painted cells -/

/-- The raster with the pixels of some cells inked. -/
def paint (r : Raster) (ink : Pixel) (cells : List (Nat × Nat)) : Raster :=
  { r with
    pixels := r.pixels.mapIdx fun i pixel =>
      if (i % r.width, i / r.width) ∈ cells then ink else pixel
    size_pixels := by rw [Array.size_mapIdx]; exact r.size_pixels }

/-- **Which pixels are ink**: those of the painted cells, and of the others those that were. -/
theorem get?_paint (r : Raster) (ink : Pixel) (cells : List (Nat × Nat)) (x y : Nat) :
    (r.paint ink cells).get? x y =
      if (x, y) ∈ cells then (r.get? x y).map fun _ => ink else r.get? x y := by
  show (if x < r.width ∧ y < r.height then (r.paint ink cells).pixels[y * r.width + x]?
    else none) = _
  rw [get?]
  by_cases inside : x < r.width ∧ y < r.height
  · have column : (y * r.width + x) % r.width = x := by
      rw [Nat.mul_add_mod', Nat.mod_eq_of_lt inside.1]
    have row : (y * r.width + x) / r.width = y := by
      have wide : 0 < r.width := Nat.zero_lt_of_lt inside.1
      rw [Nat.mul_comm, Nat.mul_add_div wide, Nat.div_eq_of_lt inside.1, Nat.add_zero]
    rw [if_pos inside, if_pos inside, paint, Array.getElem?_mapIdx, column, row]
    by_cases painted : (x, y) ∈ cells
    · simp only [if_pos painted]
    · simp only [if_neg painted, Option.map_id']
  · rw [if_neg inside, if_neg inside, Option.map_none, ite_self]

/-- The pixels of a painted raster are ink, or were there. -/
theorem eq_or_mem_of_mem_paint {r : Raster} {ink pixel : Pixel} {cells : List (Nat × Nat)}
    (h : pixel ∈ (r.paint ink cells).pixels) : pixel = ink ∨ pixel ∈ r.pixels := by
  obtain ⟨i, bound, rfl⟩ := Array.mem_mapIdx.mp h
  by_cases painted : (i % r.width, i / r.width) ∈ cells
  · exact .inl (if_pos painted)
  · rw [if_neg painted]
    exact .inr (Array.getElem_mem bound)

theorem paint_nil (r : Raster) (ink : Pixel) : r.paint ink [] = r := by
  refine ext_get? ⟨rfl, rfl⟩ fun x y => ?_
  rw [get?_paint, if_neg List.not_mem_nil]

/-- Cells may be painted in two parts. -/
theorem paint_append (r : Raster) (ink : Pixel) (first second : List (Nat × Nat)) :
    r.paint ink (first ++ second) = (r.paint ink first).paint ink second := by
  refine ext_get? ⟨rfl, rfl⟩ fun x y => ?_
  rw [get?_paint, get?_paint, get?_paint]
  by_cases early : (x, y) ∈ first
  · -- painting a cell once more changes nothing
    rw [if_pos early, if_pos (List.mem_append_left second early), Option.map_map]
    exact (ite_self _).symm
  · rw [if_neg early]
    simp only [List.mem_append, early, false_or]

/-- Neither the order of the cells nor their number matters. -/
theorem paint_congr (r : Raster) (ink : Pixel) {first second : List (Nat × Nat)}
    (same : ∀ cell, cell ∈ first ↔ cell ∈ second) : r.paint ink first = r.paint ink second := by
  refine ext_get? ⟨rfl, rfl⟩ fun x y => ?_
  rw [get?_paint, get?_paint]
  simp only [same]

/-! ## Dots and lines -/

/-- Setting a pixel that lies in the raster paints its cell. -/
theorem set_eq_paint {r : Raster} {x y : Nat} (inside : x < r.width ∧ y < r.height)
    (ink : Pixel) : r.set x y ink = .ok (r.paint ink [(x, y)]) := by
  obtain ⟨s, done, size⟩ := exists_set inside ink
  rw [done]
  refine congrArg Except.ok (ext_get? ⟨size.width.symm, size.height.symm⟩ fun x' y' => ?_)
  rw [get?_of_set done, get?_paint]
  simp only [List.mem_singleton]
  by_cases here : (x', y') = (x, y)
  · obtain ⟨rfl, rfl⟩ := Prod.mk.inj here
    rw [if_pos rfl, if_pos rfl, get?, if_pos inside, Array.getElem?_eq_getElem (index_lt inside),
      Option.map_some]
  · rw [if_neg here, if_neg here]

/-- **Setting pixels one after another paints their cells**, if all of them lie in the raster. -/
theorem foldlM_set_eq_paint (ink : Pixel) {r : Raster} {cells : List (Nat × Nat)}
    (inside : ∀ cell ∈ cells, cell.1 < r.width ∧ cell.2 < r.height) :
    cells.foldlM (fun (r : Raster) (x, y) => r.set x y ink) r = .ok (r.paint ink cells) := by
  induction cells generalizing r with
  | nil => rw [paint_nil]; rfl
  | cons cell cells ih =>
      obtain ⟨x, y⟩ := cell
      have first : r.set x y ink = .ok (r.paint ink [(x, y)]) :=
        set_eq_paint (inside (x, y) List.mem_cons_self) ink
      have rest := ih (r := r.paint ink [(x, y)]) fun later mem =>
        inside later (List.mem_cons_of_mem (x, y) mem)
      rw [← paint_append] at rest
      rw [List.foldlM_cons]
      dsimp only
      rw [first]
      exact rest

/-- A dot paints the cells of its disc. -/
theorem stamp_eq_paint (r : Raster) (ink : Pixel) (d : Disc) :
    r.stamp ink d = .ok (r.paint ink (d.cells r.width r.height)) :=
  foldlM_set_eq_paint ink fun _ => Disc.cells_inside

/-- The cells of a line: those of its discs, both ends included. -/
def lineCells (width height : Nat) (penSize : Float32) (start finish : Place) :
    List (Nat × Nat) :=
  (List.range (lineParts start finish + 1)).flatMap fun i =>
    (Disc.around (linePlace start finish (lineParts start finish) i) penSize).cells width height

/-- A line paints the cells of its discs, which are all of one size of raster. -/
theorem line_eq_paint (r : Raster) (ink : Pixel) (penSize : Float32) (start finish : Place) :
    r.line ink penSize start finish =
      .ok (r.paint ink (lineCells r.width r.height penSize start finish)) := by
  rw [line, lineCells]
  generalize lineParts start finish = parts
  -- on how many discs are drawn, while the line stays cut into as many parts
  generalize parts + 1 = count
  induction count with
  | zero => exact congrArg Except.ok (r.paint_nil ink).symm
  | succ count ih =>
      rw [Nat.fold_succ, ih, List.range_succ, List.flatMap_append, paint_append,
        List.flatMap_singleton]
      exact stamp_eq_paint _ ink _

end Raster

/-! ## Marks -/

/-- The cells of a mark on a raster of a size. -/
def Mark.cells (width height : Nat) (style : Style) : Mark → List (Nat × Nat)
  | .dot center size => (Disc.around (center.scale width height) size).cells width height
  | .line start finish =>
    Raster.lineCells width height style.penSize (start.scale width height)
      (finish.scale width height)

/-- A mark paints its cells. -/
theorem Mark.drawOn_eq_paint (style : Style) (r : Raster) (mark : Mark) :
    mark.drawOn r.width r.height style r =
      .ok (r.paint style.ink.pixel (mark.cells r.width r.height style)) := by
  cases mark with
  | dot center size => exact r.stamp_eq_paint _ _
  | line start finish => exact r.line_eq_paint _ _ _ _

/-- Several marks paint the cells of all of them. -/
theorem Raster.draw_eq_paint (style : Style) (r : Raster) (marks : List Mark) :
    r.draw style marks =
      .ok (r.paint style.ink.pixel (marks.flatMap (Mark.cells r.width r.height style))) := by
  induction marks generalizing r with
  | nil => exact congrArg Except.ok (r.paint_nil _).symm
  | cons mark marks ih =>
      have later := ih (r.paint style.ink.pixel (mark.cells r.width r.height style))
      rw [draw] at later
      rw [List.flatMap_cons, paint_append, draw, List.foldlM_cons, mark.drawOn_eq_paint]
      exact later

end PenDrawing
