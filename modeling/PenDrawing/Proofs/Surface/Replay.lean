import PenDrawing.Surface.Canvas
import PenDrawing.Surface.Picture
import Mathlib.Tactic.Common

/-!
# A picture shows the marks of a canvas

A picture keeps places in pixels and draws at once, a canvas keeps them in shares of its sides and
keeps its marks for later.  Whatever is on a picture, a canvas without marks that is told the same
collects what is drawn over it (`ShowsOver`), until the picture is cleared.

Told the same from the beginning, the two stay in step (`Shows`): the raster of the picture is what
drawing the marks of the canvas one by one on blank paper gives (`replay`).  Each command preserves
that (`Shows.apply`), so it holds after any commands (`raster_eq_replay`).

Scaling shares of the sides to pixels takes the size of the raster, which no drawing on it changes
(`Raster.sameSize_of_draw`).
-/

namespace PenDrawing

/-! ## Drawing marks one by one -/

/-- A place in pixels, from one in shares of the sides. -/
def Place.scale (width height : Nat) (share : Place) : Place :=
  ⟨share.x * (UInt32.ofNat width).toFloat32, share.y * (UInt32.ofNat height).toFloat32⟩

/-- A raster with one more mark drawn on it. -/
def Mark.drawOn (width height : Nat) (style : Style) (r : Raster) : Mark → Except Outside Raster
  | .dot center size => r.stamp style.ink.pixel (.around (center.scale width height) size)
  | .line start finish =>
    r.line style.ink.pixel style.penSize (start.scale width height) (finish.scale width height)

/-- A raster with marks drawn on it, one after another. -/
def Raster.draw (style : Style) (r : Raster) (marks : List Mark) : Except Outside Raster :=
  marks.foldlM (Mark.drawOn r.width r.height style) r

/-- Blank paper with marks drawn on it, one after another. -/
def replay (width height : Nat) (style : Style) (marks : List Mark) : Except Outside Raster :=
  marks.foldlM (Mark.drawOn width height style) (.blank width height style.paper.pixel)

/-- Every mark can be drawn. -/
theorem Mark.exists_drawOn (width height : Nat) (style : Style) (r : Raster) (mark : Mark) :
    ∃ s, mark.drawOn width height style r = .ok s ∧ Raster.SameSize r s := by
  cases mark with
  | dot center size => exact r.exists_stamp _ _
  | line start finish => exact r.exists_line _ _ _ _

namespace Raster

/-- One mark more is drawn on what the others gave. -/
theorem draw_concat (style : Style) {r s : Raster} {marks : List Mark}
    (h : r.draw style marks = .ok s) (mark : Mark) :
    r.draw style (marks ++ [mark]) = mark.drawOn r.width r.height style s := by
  rw [draw] at h
  rw [draw, List.foldlM_append, h]
  exact bind_pure (mark.drawOn r.width r.height style s)

/-- Drawing marks does not change the size. -/
theorem sameSize_of_draw {style : Style} {r s : Raster} {marks : List Mark}
    (h : r.draw style marks = .ok s) : SameSize r s := by
  obtain ⟨drawn, done, size⟩ : ∃ s, r.draw style marks = .ok s ∧ SameSize r s :=
    exists_foldlM fun s _ mark _ => mark.exists_drawOn r.width r.height style s
  rw [h, Except.ok.injEq] at done
  rw [done]
  exact size

end Raster

/-! ## The two surfaces in step -/

/-- A picture shows the marks of a canvas over a raster: both show one part of the world, both pens
are down at the same place or both are up, and the picture is that raster with the marks of the
canvas drawn on it in the picture's style. -/
structure ShowsOver (base : Raster) (style : Style) (p : Picture) (c : Canvas) : Prop where
  drawnIn : p.style = style
  bounds : p.bounds = c.bounds
  pen : p.pen = c.pen.map (Place.scale base.width base.height)
  raster : base.draw style c.marks.toList = .ok p.raster

section

variable {base : Raster} {style : Style} {p : Picture} {c : Canvas}

/-- A place in pixels is its shares of the sides, scaled to the size of the first raster. -/
theorem ShowsOver.toPixel (h : ShowsOver base style p c) (place : Place) :
    p.toPixel place = (c.bounds.normalize place).scale base.width base.height := by
  have size := Raster.sameSize_of_draw h.raster
  rw [Picture.toPixel, size.width, size.height, h.bounds]
  rfl

/-- A mark on the canvas is drawn into the raster. -/
theorem ShowsOver.add (h : ShowsOver base style p c) (mark : Mark) {raster : Raster}
    (drawn : mark.drawOn base.width base.height style p.raster = .ok raster) :
    base.draw style (c.add mark).marks.toList = .ok raster := by
  rw [Canvas.add, Array.toList_push, Raster.draw_concat style h.raster, drawn]

/-- Moving both pens draws a line on both or on neither. -/
theorem ShowsOver.moveTo (h : ShowsOver base style p c) (place : Place) :
    ShowsOver base style (Surface.apply p (.moveTo place)) (c.moveTo place) := by
  have pens := h.pen
  rw [Canvas.moveTo]
  cases down : c.pen with
  | none =>
      rw [down] at pens
      rw [Picture.apply_eq_of_step (Picture.step_moveTo_of_up pens place), h.toPixel]
      exact ⟨h.drawnIn, h.bounds, rfl, h.raster⟩
  | some start =>
      rw [down] at pens
      obtain ⟨raster, drawn, -⟩ := p.raster.exists_line p.style.ink.pixel p.style.penSize
        (start.scale base.width base.height) (p.toPixel place)
      rw [Picture.apply_eq_of_step (Picture.step_moveTo_of_down pens drawn), h.toPixel]
      -- both were down at the same place, and the line to the next one is the same
      rw [h.toPixel, h.drawnIn] at drawn
      exact ⟨h.drawnIn, h.bounds, rfl,
        h.add (.line start (c.bounds.normalize place)) drawn⟩

/-- A dot is drawn on both or on neither. -/
theorem ShowsOver.dot (h : ShowsOver base style p c) (size : Float32) :
    ShowsOver base style (Surface.apply p (.dot size)) (c.dot size) := by
  have pens := h.pen
  rw [Canvas.dot]
  cases down : c.pen with
  | none =>
      rw [down] at pens
      rw [Picture.apply_eq_of_step (Picture.step_dot_of_up pens size)]
      exact h
  | some center =>
      rw [down] at pens
      obtain ⟨raster, drawn, -⟩ := p.raster.exists_stamp p.style.ink.pixel
        (.around (center.scale base.width base.height) size)
      rw [Picture.apply_eq_of_step (Picture.step_dot_of_down pens drawn)]
      rw [h.drawnIn] at drawn
      exact ⟨h.drawnIn, h.bounds, h.pen, h.add (.dot center size) drawn⟩

/-- Every command but clearing leaves the picture showing the marks over the same raster. -/
theorem ShowsOver.apply (h : ShowsOver base style p c) {command : Command}
    (keeps : command ≠ .clear) :
    ShowsOver base style (Surface.apply p command) (Surface.apply c command) := by
  cases command with
  | setSpeed speed => exact ⟨h.drawnIn, h.bounds, h.pen, h.raster⟩
  | setWorld bounds => exact ⟨h.drawnIn, rfl, rfl, h.raster⟩
  | penUp => exact ⟨h.drawnIn, h.bounds, rfl, h.raster⟩
  | moveTo place => exact h.moveTo place
  | dot size => exact h.dot size
  | clear => exact absurd rfl keeps
  | close => exact ⟨h.drawnIn, h.bounds, h.pen, h.raster⟩

/-- Commands among which none clears leave the picture showing the marks. -/
theorem ShowsOver.applyAll (h : ShowsOver base style p c) {commands : List Command}
    (keeps : Command.clear ∉ commands) :
    ShowsOver base style (applyAll p commands) (applyAll c commands) := by
  induction commands generalizing p c with
  | nil => exact h
  | cons command rest ih =>
      have first : command ≠ .clear := fun same => keeps (same ▸ List.mem_cons_self)
      exact ih (h.apply first) fun later => keeps (List.mem_cons_of_mem command later)

end

/-- A picture and a canvas are in step: they draw in one style and show one part of the world, both
pens are down at the same place or both are up, and the raster is blank paper with the marks of the
canvas on it. -/
structure Shows (width height : Nat) (style : Style) (p : Picture) (c : Canvas) : Prop where
  pictureStyle : p.style = style
  canvasStyle : c.style = style
  bounds : p.bounds = c.bounds
  pen : p.pen = c.pen.map (Place.scale width height)
  raster : replay width height style c.marks.toList = .ok p.raster

variable {width height : Nat} {style : Style}

theorem shows_blank (width height : Nat) (style : Style) :
    Shows width height style (.blank width height style) (.blank style) :=
  ⟨rfl, rfl, rfl, rfl, rfl⟩

variable {p : Picture} {c : Canvas}

/-- To be in step is to show the marks over blank paper, in one style. -/
theorem shows_iff_over :
    Shows width height style p c ↔
      ShowsOver (.blank width height style.paper.pixel) style p c ∧ c.style = style :=
  ⟨fun h => ⟨⟨h.pictureStyle, h.bounds, h.pen, h.raster⟩, h.canvasStyle⟩,
    fun h => ⟨h.1.drawnIn, h.2, h.1.bounds, h.1.pen, h.1.raster⟩⟩

/-- No command changes the style of a canvas. -/
theorem Canvas.style_apply (c : Canvas) (command : Command) :
    (Surface.apply c command).style = c.style := by
  cases command with
  | setSpeed speed => rfl
  | setWorld bounds => rfl
  | penUp => rfl
  | moveTo place =>
      show (c.moveTo place).style = c.style
      rw [Canvas.moveTo]
      cases c.pen <;> rfl
  | dot size =>
      show (c.dot size).style = c.style
      rw [Canvas.dot]
      cases c.pen <;> rfl
  | clear => rfl
  | close => rfl

/-- What is left of a picture that is cleared is blank paper, as without marks. -/
theorem Shows.fill (h : Shows width height style p c) :
    replay width height style [] = .ok (p.raster.fill p.style.paper.pixel) := by
  have size := Raster.sameSize_of_draw (shows_iff_over.mp h).1.raster
  rw [Raster.fill, h.pictureStyle, size.width, size.height]
  rfl

/-- Every command keeps the two surfaces in step. -/
theorem Shows.apply (h : Shows width height style p c) (command : Command) :
    Shows width height style (Surface.apply p command) (Surface.apply c command) := by
  by_cases clears : command = .clear
  · rw [clears]
    exact ⟨h.pictureStyle, h.canvasStyle, h.bounds, rfl, h.fill⟩
  · obtain ⟨shown, same⟩ := shows_iff_over.mp h
    exact shows_iff_over.mpr ⟨shown.apply clears, (c.style_apply command).trans same⟩

/-- Any commands keep the two surfaces in step. -/
theorem Shows.applyAll (h : Shows width height style p c) (commands : List Command) :
    Shows width height style (applyAll p commands) (applyAll c commands) := by
  induction commands generalizing p c with
  | nil => exact h
  | cons command commands ih => exact ih (h.apply command)

/-- **A picture shows the marks of a canvas.**  After any commands to both, the marks of the canvas
can be drawn one by one on blank paper, and that gives the raster of the picture; the pens are down
at the same place or both up. -/
theorem raster_eq_replay (width height : Nat) (style : Style) (commands : List Command) :
    replay width height style (applyAll (Canvas.blank style) commands).marks.toList =
      .ok (applyAll (Picture.blank width height style) commands).raster ∧
    (applyAll (Picture.blank width height style) commands).pen =
      (applyAll (Canvas.blank style) commands).pen.map (Place.scale width height) ∧
    (applyAll (Picture.blank width height style) commands).pen.isSome =
      (applyAll (Canvas.blank style) commands).pen.isSome := by
  have inStep := (shows_blank width height style).applyAll commands
  refine ⟨inStep.raster, inStep.pen, ?_⟩
  rw [inStep.pen, Option.isSome_map]

end PenDrawing
