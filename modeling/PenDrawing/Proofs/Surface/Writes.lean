import PenDrawing.Proofs.Surface.Order

/-!
# No pixel is written outside of a picture

Setting a pixel that a raster does not have fails (`Raster.set`), and so does the command that tries
it, and all that is to be done after it (`Picture.steps`).  The route:

* no command fails, whatever it says (`Picture.exists_step`), so several commands do not
  (`Picture.steps_eq_ok`), and they lead to what they make of the surface;
* a command leaves the sides as they are (`Picture.Framed.apply`);
* what is drawn inks some pixels and leaves the others (`Picture.Painted.apply`), and clearing makes
  all of them paper, so all pixels are in the two colours of the style (`Picture.TwoColored.apply`).

Together these say that nothing is written outside (`writes_inside`).
-/

namespace PenDrawing

namespace Picture

/-- A picture after several commands, up to the first one that draws outside of the raster. -/
def steps (p : Picture) (commands : List Command) : Except Outside Picture :=
  commands.foldlM step p

/-- **No run of commands fails**: each finds the picture that those before it have led to. -/
theorem steps_eq_ok (p : Picture) (commands : List Command) :
    p.steps commands = .ok (applyAll p commands) := by
  induction commands generalizing p with
  | nil => rfl
  | cons command rest ih =>
      rw [steps, List.foldlM_cons, step_eq_apply]
      exact ih (Surface.apply p command)

/-! ## Two colours -/

/-- All pixels are in the colours of a style. -/
def TwoColored (style : Style) (p : Picture) : Prop :=
  ∀ pixel ∈ p.raster.pixels, pixel = style.ink.pixel ∨ pixel = style.paper.pixel

variable {width height : Nat} {style : Style} {p : Picture}

/-- The pixels of blank paper are paper. -/
theorem eq_paper_of_mem_blank {paper pixel : Pixel}
    (h : pixel ∈ (Raster.blank width height paper).pixels) : pixel = paper :=
  Array.eq_of_mem_replicate h

/-- Blank paper is in the colours of the style. -/
theorem Clean.twoColored (h : Clean width height style p) : TwoColored style p := by
  intro pixel mem
  rw [h.raster] at mem
  exact .inr (eq_paper_of_mem_blank mem)

/-- No command brings a third colour. -/
theorem TwoColored.apply (h : TwoColored style p) (framed : Framed width height style p)
    (command : Command) : TwoColored style (Surface.apply p command) := by
  by_cases clears : command = .clear
  · rw [clears]
    exact framed.clean_clear.twoColored
  · obtain ⟨⟨cells, painted⟩, -⟩ := Painted.apply p clears
    intro pixel mem
    rw [painted, framed.style] at mem
    rcases Raster.eq_or_mem_of_mem_paint mem with ink | before
    · exact .inl ink
    · exact h pixel before

/-- No commands bring a third colour. -/
theorem TwoColored.applyAll (h : TwoColored style p) (framed : Framed width height style p)
    (commands : List Command) : TwoColored style (PenDrawing.applyAll p commands) := by
  induction commands generalizing p with
  | nil => exact h
  | cons command rest ih => exact ih (h.apply framed command) (framed.apply command)

end Picture

/-- **No pixel is written outside of a picture.**  Whatever a picture of any size is told, with any
numbers, no write fails: the commands lead to a picture, the one that they make of it as a surface.
Its sides are as long as they were, and all of its pixels are ink or paper.  Clearing it does not
fail either and makes all of them paper. -/
theorem writes_inside (width height : Nat) (style : Style) (commands : List Command) :
    ∃ p, (Picture.blank width height style).steps commands = .ok p ∧
      applyAll (Picture.blank width height style) commands = p ∧
      p.raster.width = width ∧ p.raster.height = height ∧
      (∀ pixel ∈ p.raster.pixels, pixel = style.ink.pixel ∨ pixel = style.paper.pixel) ∧
      ∃ q, p.step .clear = .ok q ∧ q.raster = .blank width height style.paper.pixel ∧
        ∀ pixel ∈ q.raster.pixels, pixel = style.paper.pixel := by
  have begun := Picture.framed_blank width height style
  have framed := begun.applyAll commands
  have colors := (Picture.clean_blank width height style).twoColored.applyAll begun commands
  have paper := framed.clean_clear.raster
  refine ⟨_, Picture.steps_eq_ok _ commands, rfl, framed.width, framed.height, colors, _,
    Picture.step_eq_apply _ .clear, paper, ?_⟩
  intro pixel mem
  rw [paper] at mem
  exact Picture.eq_paper_of_mem_blank mem

/-- A dot of infinite width reaches all pixels and none outside, a line to a place that is none
reaches none, and a world without extent makes places that are none. -/
theorem writes_inside_infinite_dot :
    let commands : List Command :=
      [.moveTo ⟨0, 0⟩, .dot (1 / 0), .moveTo ⟨0 / 0, 1 / 0⟩, .setWorld ⟨⟨1, 1⟩, ⟨1, 1⟩⟩,
        .moveTo ⟨1, 1⟩, .dot (0 / 0)]
    ∃ p, (Picture.blank 2 1 .standard).steps commands = .ok p ∧
      p.raster.width = 2 ∧ p.raster.height = 1 ∧
      p.raster.pixels = #[Style.standard.ink.pixel, Style.standard.ink.pixel] := by
  intro commands
  obtain ⟨p, done, same, width, height, -⟩ := writes_inside 2 1 .standard commands
  refine ⟨p, done, width, height, ?_⟩
  rw [← same]
  decide +kernel

end PenDrawing
