import PenDrawing.Surface.Command
import PenDrawing.Surface.Raster

/-!
# A surface of pixels

A picture is drawn at once and for good: every mark goes into its raster as it is made. It has no
speed.

Drawing outside of the raster would fail, and the picture after a command is what
**`Picture.step`** gives. **`Picture.exists_step`** says that this never fails, which is what makes
a picture a surface: any command can be given to it.
-/

namespace PenDrawing

/-- A raster in use: what it is drawn on with, the part of the world it shows, where the pen is
down, in pixels, and whether the session has ended. -/
structure Picture where
  raster : Raster
  style : Style
  bounds : Bounds
  pen : Option Place
  closed : Bool

namespace Picture

/-- A picture without marks. -/
def blank (width height : Nat) (style : Style) : Picture :=
  ⟨.blank width height style.paper.pixel, style, .program, none, false⟩

/-- A picture without marks, if one of its size can be kept. -/
def ofSize (width height : Nat) (style : Style) : Except SizeError Picture :=
  match Raster.checkSize width height with
  | .error cause => .error cause
  | .ok () => .ok (blank width height style)

/-- A place of the world in pixels. -/
def toPixel (p : Picture) (place : Place) : Place :=
  let share := p.bounds.normalize place
  ⟨share.x * (UInt32.ofNat p.raster.width).toFloat32,
    share.y * (UInt32.ofNat p.raster.height).toFloat32⟩

/-- The picture with the pen moved, and a line behind it if it was down. -/
def moveTo (p : Picture) (place : Place) : Except Outside Picture :=
  let target := p.toPixel place
  match p.pen with
  | none => .ok { p with pen := some target }
  | some start => do
    let raster ← p.raster.line p.style.ink.pixel p.style.penSize start target
    return { p with raster, pen := some target }

/-- The picture with a dot at the pen, if it is down. -/
def dot (p : Picture) (size : Float32) : Except Outside Picture :=
  match p.pen with
  | none => .ok p
  | some center => do
    let raster ← p.raster.stamp p.style.ink.pixel (.around center size)
    return { p with raster }

/-- The picture after a command. -/
def step (p : Picture) : Command → Except Outside Picture
  | .setSpeed _ => .ok p
  | .setWorld bounds => .ok { p with bounds, pen := none }
  | .penUp => .ok { p with pen := none }
  | .moveTo place => p.moveTo place
  | .dot size => p.dot size
  | .clear => .ok { p with raster := p.raster.fill p.style.paper.pixel, pen := none }
  | .close => .ok { p with closed := true }

/-! ## Every command can be given -/

variable {p q : Picture}

/-- Where the pen is up a move draws nothing. -/
theorem step_moveTo_of_up (up : p.pen = none) (place : Place) :
    p.step (.moveTo place) = .ok { p with pen := some (p.toPixel place) } := by
  rw [step, moveTo, up]

/-- Where the pen is down a move draws a line. -/
theorem step_moveTo_of_down {start place : Place} {raster : Raster} (down : p.pen = some start)
    (drawn : p.raster.line p.style.ink.pixel p.style.penSize start (p.toPixel place) =
      .ok raster) :
    p.step (.moveTo place) = .ok { p with raster, pen := some (p.toPixel place) } := by
  rw [step, moveTo, down]
  dsimp only
  rw [drawn]
  rfl

/-- Where the pen is up there is no dot. -/
theorem step_dot_of_up (up : p.pen = none) (size : Float32) : p.step (.dot size) = .ok p := by
  rw [step, dot, up]

/-- Where the pen is down a disc is drawn. -/
theorem step_dot_of_down {center : Place} {size : Float32} {raster : Raster}
    (down : p.pen = some center)
    (drawn : p.raster.stamp p.style.ink.pixel (.around center size) = .ok raster) :
    p.step (.dot size) = .ok { p with raster } := by
  rw [step, dot, down]
  dsimp only
  rw [drawn]
  rfl

/-- A move can always be made, and changes nothing but where the pen is and the pixels. -/
theorem exists_step_moveTo (p : Picture) (place : Place) :
    ∃ raster, Raster.SameSize p.raster raster ∧
      p.step (.moveTo place) = .ok { p with raster, pen := some (p.toPixel place) } := by
  obtain up | ⟨start, down⟩ := Option.eq_none_or_eq_some p.pen
  · exact ⟨p.raster, .refl _, step_moveTo_of_up up place⟩
  · obtain ⟨raster, drawn, same⟩ := p.raster.exists_line p.style.ink.pixel p.style.penSize
      start (p.toPixel place)
    exact ⟨raster, same, step_moveTo_of_down down drawn⟩

/-- A dot can always be made, and changes nothing but the pixels. -/
theorem exists_step_dot (p : Picture) (size : Float32) :
    ∃ raster, Raster.SameSize p.raster raster ∧
      p.step (.dot size) = .ok { p with raster } := by
  obtain up | ⟨center, down⟩ := Option.eq_none_or_eq_some p.pen
  · exact ⟨p.raster, .refl _, step_dot_of_up up size⟩
  · obtain ⟨raster, drawn, same⟩ := p.raster.exists_stamp p.style.ink.pixel
      (.around center size)
    exact ⟨raster, same, step_dot_of_down down drawn⟩

/-- **No command draws outside of the raster**, whatever its numbers are. -/
theorem exists_step (p : Picture) (command : Command) : ∃ q, p.step command = .ok q := by
  cases command with
  | moveTo place =>
      obtain ⟨raster, -, done⟩ := p.exists_step_moveTo place
      exact ⟨_, done⟩
  | dot size =>
      obtain ⟨raster, -, done⟩ := p.exists_step_dot size
      exact ⟨_, done⟩
  | setSpeed speed => exact ⟨_, rfl⟩
  | setWorld bounds => exact ⟨_, rfl⟩
  | penUp => exact ⟨_, rfl⟩
  | clear => exact ⟨_, rfl⟩
  | close => exact ⟨_, rfl⟩

theorem step_ne_error (p : Picture) (command : Command) (outside : Outside) :
    p.step command ≠ .error outside := by
  obtain ⟨q, done⟩ := p.exists_step command
  rw [done]
  exact nofun

instance : Surface Picture where
  apply p command :=
    match failed : p.step command with
    | .ok q => q
    | .error outside => absurd failed (p.step_ne_error command outside)

/-- What a command gives is the picture after it. -/
theorem apply_eq_of_step {command : Command} (h : p.step command = .ok q) :
    Surface.apply p command = q := by
  simp only [Surface.apply]
  split
  · rename_i given same
    rw [h] at same
    exact (Except.ok.inj same).symm
  · rename_i outside failed
    exact absurd failed (p.step_ne_error command outside)

/-- As a surface a picture changes by what a command gives. -/
theorem step_eq_apply (p : Picture) (command : Command) :
    p.step command = .ok (Surface.apply p command) := by
  obtain ⟨q, done⟩ := p.exists_step command
  rw [done, apply_eq_of_step done]

end Picture

end PenDrawing
