import PenDrawing.Rounding
import PenDrawing.Surface.Style
import PenDrawing.World

/-!
# Rasters: pictures as pixels

A raster is a rectangle of pixels. Dots are drawn on it as discs, and lines as discs in a row that
are no further apart than one pixel.

* **`Disc.cells`** are the pixels of a raster whose middle lies in a disc; **`Disc.cells_inside`**
  says that they are pixels of the raster, whatever the numbers of the disc are.
* **`Raster.checkSize`** says which rectangles are too large to be kept.
* **`Raster.set`** changes a pixel, and fails where the raster has none.
* **`Raster.stamp`** and **`Raster.line`** draw a dot and a line pixel by pixel, each of them with
  that check; **`Raster.exists_stamp`** and **`Raster.exists_line`** say that none fails.
-/

namespace PenDrawing

/-- A pixel: three shares of light, and how opaque it is. -/
structure Pixel where
  red : UInt8
  green : UInt8
  blue : UInt8
  alpha : UInt8
deriving DecidableEq, Repr, Inhabited

/-- A share of light in 255 steps. -/
def channel (share : Float32) : UInt8 :=
  UInt8.ofNat (Rounding.nearestWord (Rounding.between 0 1 share * 255)).toNat

/-- The opaque pixel of a colour. -/
def Color.pixel (c : Color) : Pixel := ⟨channel c.red, channel c.green, channel c.blue, 255⟩

/-! ## Discs -/

/-- A disc in pixels. -/
structure Disc where
  center : Place
  radius : Float32

namespace Disc

/-- The least radius: whatever the disc, the pixel it stands on may be hit. -/
def minRadius : Float32 := 0.5

/-- The disc of a given width around a place. -/
def around (center : Place) (diameter : Float32) : Disc :=
  ⟨center, Rounding.larger (diameter / 2) minRadius⟩

/-- Whole numbers from a number less the radius to that number and the radius, below a limit. -/
def range (middle radius : Float32) (limit : Nat) : List Nat :=
  let first := (Rounding.floorWord (middle - radius)).toNat
  let last := min (Rounding.ceilWord (middle + radius)).toNat limit
  List.range' first (last - first)

/-- How far the middle of a pixel is from a number. -/
def offset (n : Nat) (middle : Float32) : Float32 := (UInt32.ofNat n).toFloat32 + 0.5 - middle

/-- The middle of a pixel lies in the disc. -/
def covers (d : Disc) (x y : Nat) : Bool :=
  let dx := offset x d.center.x
  let dy := offset y d.center.y
  dx * dx + dy * dy ≤ d.radius * d.radius

/-- The pixels of a raster that the disc covers, row by row. -/
def cells (d : Disc) (width height : Nat) : List (Nat × Nat) :=
  let columns := range d.center.x d.radius width
  (range d.center.y d.radius height).flatMap fun y =>
    (columns.filter (d.covers · y)).map (·, y)

/-- The numbers of a range are below its limit. -/
theorem lt_of_mem_range {middle radius : Float32} {limit n : Nat}
    (h : n ∈ range middle radius limit) : n < limit := by
  simp only [range, List.mem_range'_1] at h
  omega

/-- The pixels that a disc covers are pixels of the raster. -/
theorem cells_inside {d : Disc} {width height x y : Nat} (h : (x, y) ∈ d.cells width height) :
    x < width ∧ y < height := by
  simp only [cells, List.mem_flatMap, List.mem_map, List.mem_filter, Prod.mk.injEq] at h
  obtain ⟨_, row, _, ⟨column, _⟩, rfl, rfl⟩ := h
  exact ⟨lt_of_mem_range column, lt_of_mem_range row⟩

end Disc

/-! ## Rasters -/

/-- A rectangle of pixels, row by row. -/
structure Raster where
  width : Nat
  height : Nat
  pixels : Array Pixel
  size_pixels : pixels.size = width * height

/-- Why a rectangle is too large. -/
inductive SizeError where
  /-- A machine word cannot count its bytes. -/
  | uncountable
  /-- No memory can hold its bytes. -/
  | unstorable
deriving DecidableEq, Repr

/-- The text that reports a rectangle that is too large. -/
def SizeError.message : SizeError → String
  | .uncountable => "Buffer length in \x60ImageBuffer::new\x60 overflows usize"
  | .unstorable => "capacity overflow"

/-- A pixel that a raster of a size does not have. -/
structure Outside where
  x : Nat
  y : Nat
  width : Nat
  height : Nat
deriving DecidableEq, Repr

namespace Raster

/-- The bytes of a pixel. -/
def bytesPerPixel : Nat := 4

/-- Finds out whether a rectangle can be kept: its bytes are counted by a machine word, and one half
of what a word counts can be stored. -/
def checkSize (width height : Nat) : Except SizeError Unit :=
  let bytes := bytesPerPixel * width * height
  if Nat.pow 2 64 ≤ bytes then .error .uncountable
  else if Nat.pow 2 63 ≤ bytes then .error .unstorable
  else .ok ()

/-- A raster of one colour. -/
def blank (width height : Nat) (paper : Pixel) : Raster :=
  ⟨width, height, Array.replicate (width * height) paper, by simp⟩

/-- The pixel at a place, if it lies in the raster. -/
def get? (r : Raster) (x y : Nat) : Option Pixel :=
  if x < r.width ∧ y < r.height then r.pixels[y * r.width + x]? else none

/-- The places in a raster are places of its pixels. -/
theorem index_lt {r : Raster} {x y : Nat} (inside : x < r.width ∧ y < r.height) :
    y * r.width + x < r.pixels.size := by
  have rows := Nat.mul_le_mul_right r.width (Nat.succ_le_of_lt inside.2)
  rw [Nat.succ_mul, Nat.mul_comm r.height r.width, ← r.size_pixels] at rows
  omega

/-- The raster with another pixel at a place, which has to lie in it. -/
def set (r : Raster) (x y : Nat) (p : Pixel) : Except Outside Raster :=
  if inside : x < r.width ∧ y < r.height then
    .ok { r with
      pixels := r.pixels.set (y * r.width + x) p (index_lt inside)
      size_pixels := by rw [Array.size_set]; exact r.size_pixels }
  else .error ⟨x, y, r.width, r.height⟩

/-- The raster with all pixels of one colour. -/
def fill (r : Raster) (paper : Pixel) : Raster := blank r.width r.height paper

/-- The pixels of a row. -/
def row (r : Raster) (y : Nat) : List Pixel :=
  (r.pixels.extract (y * r.width) ((y + 1) * r.width)).toList

/-- Draws a disc. -/
def stamp (r : Raster) (ink : Pixel) (d : Disc) : Except Outside Raster :=
  (d.cells r.width r.height).foldlM (fun r (x, y) => r.set x y ink) r

/-- How many parts a line has, each at most one pixel long. -/
def lineParts (start finish : Place) : Nat :=
  max 1 (Rounding.ceilWord (start.distance finish)).toNat

/-- The place where part `i` of `parts` of a line begins. -/
def linePlace (start finish : Place) (parts i : Nat) : Place :=
  start.toward finish ((UInt32.ofNat i).toFloat32 / (UInt32.ofNat parts).toFloat32)

/-- Draws a line of discs, both ends included. -/
def line (r : Raster) (ink : Pixel) (penSize : Float32) (start finish : Place) :
    Except Outside Raster :=
  let parts := lineParts start finish
  (parts + 1).fold
    (fun i _ drawn => drawn >>= (·.stamp ink (.around (linePlace start finish parts i) penSize)))
    (.ok r)

/-! ### Nothing is drawn outside -/

/-- Two rasters are rectangles of the same sides. -/
structure SameSize (r s : Raster) : Prop where
  width : s.width = r.width
  height : s.height = r.height

theorem SameSize.refl (r : Raster) : SameSize r r := ⟨rfl, rfl⟩

theorem SameSize.trans {r s t : Raster} (first : SameSize r s) (second : SameSize s t) :
    SameSize r t :=
  ⟨second.width.trans first.width, second.height.trans first.height⟩

/-- A pixel in the raster can be set, and the size stays. -/
theorem exists_set {r : Raster} {x y : Nat} (inside : x < r.width ∧ y < r.height) (p : Pixel) :
    ∃ s, r.set x y p = .ok s ∧ SameSize r s := by
  rw [set, dif_pos inside]
  exact ⟨_, rfl, rfl, rfl⟩

/-- What can be done to every raster of a size, and keeps the size, can be done again and again. -/
theorem exists_foldlM {α : Type} {draw : Raster → α → Except Outside Raster} {r : Raster}
    {xs : List α}
    (each : ∀ s, SameSize r s → ∀ x ∈ xs, ∃ t, draw s x = .ok t ∧ SameSize s t) :
    ∃ s, xs.foldlM draw r = .ok s ∧ SameSize r s := by
  induction xs generalizing r with
  | nil => exact ⟨r, rfl, .refl r⟩
  | cons x xs ih =>
      obtain ⟨between, drawn, same⟩ := each r (.refl r) x List.mem_cons_self
      obtain ⟨s, rest, size⟩ := ih (r := between) fun t kept y mem =>
        each t (same.trans kept) y (List.mem_cons_of_mem x mem)
      refine ⟨s, ?_, same.trans size⟩
      rw [List.foldlM_cons, drawn]
      exact rest

/-- **A disc can be drawn on every raster**, whatever its numbers are. -/
theorem exists_stamp (r : Raster) (ink : Pixel) (d : Disc) :
    ∃ s, r.stamp ink d = .ok s ∧ SameSize r s := by
  refine exists_foldlM fun s same cell mem => exists_set ?_ ink
  rw [same.width, same.height]
  exact Disc.cells_inside mem

/-- **A line can be drawn on every raster**, whatever its ends are. -/
theorem exists_line (r : Raster) (ink : Pixel) (penSize : Float32) (start finish : Place) :
    ∃ s, r.line ink penSize start finish = .ok s ∧ SameSize r s := by
  rw [line]
  -- on how many discs are drawn, while the line stays cut into as many parts
  generalize lineParts start finish = parts
  generalize parts + 1 = count
  induction count with
  | zero => exact ⟨r, rfl, .refl r⟩
  | succ count ih =>
      obtain ⟨between, before, same⟩ := ih
      obtain ⟨s, drawn, size⟩ :=
        between.exists_stamp ink (.around (linePlace start finish parts count) penSize)
      refine ⟨s, ?_, same.trans size⟩
      rw [Nat.fold_succ, before]
      exact drawn

end Raster

end PenDrawing
