import PenDrawing.CommandLine.Run
import PenDrawing.Proofs.Listing.RoundTrip
import PenDrawing.Proofs.Surface.Reuse

/-!
# Pictures do not depend on each other

All pictures of a listing are drawn with one renderer, which is cleared between them.  Whenever an
entry is reached its surface has the size and the style it began with and no marks
(`Picture.Clean`), so each picture is the one that a new renderer draws (`saves_pictures`).

* **`drawings`** are the drawings of a listing up to the first entry that is none, and
  **`outcomeOf`** is how the listing comes out.
* **`saves`** are the pictures that are saved, each under its name.
* **`render_clear_after`** says for both surfaces that a cleared one draws as a new one, and so for
  the pictures of a run.
-/

namespace PenDrawing

open CommandLine

namespace CommandLine

/-- The drawings of a listing, up to the first entry that is none. -/
def drawings : List Listing.Entry → List (Listing.Kind × Path)
  | [] => []
  | entry :: rest =>
    match entry.decode with
    | .error _ => []
    | .ok path => (entry.kind, path) :: drawings rest

/-- Why an entry is no drawing. -/
def failure? (entry : Listing.Entry) : Option EntryError :=
  match entry.decode with
  | .error cause => some ⟨entry.kind, cause⟩
  | .ok _ => none

/-- How a listing comes out: with the first entry that is no drawing, or with the number of
drawings that have points. -/
def outcomeOf (entries : List Listing.Entry) : Except EntryError Nat :=
  match entries.findSome? failure? with
  | some failed => .error failed
  | none => .ok ((drawings entries).countP (!·.2.isEmpty))

/-- A listing comes out with its first entry if that is no drawing. -/
theorem outcomeOf_of_error {entry : Listing.Entry} (rest : List Listing.Entry)
    {cause : DecodeError} (h : entry.decode = .error cause) :
    outcomeOf (entry :: rest) = .error ⟨entry.kind, cause⟩ := by
  rw [outcomeOf, List.findSome?_cons, failure?, h]

/-- A drawing counts as one more if it has points. -/
theorem outcomeOf_of_ok {entry : Listing.Entry} (rest : List Listing.Entry) {path : Path}
    (h : entry.decode = .ok path) :
    outcomeOf (entry :: rest) = (outcomeOf rest).map ((if path.isEmpty then 0 else 1) + ·) := by
  rw [outcomeOf, List.findSome?_cons, failure?, h, drawings, h, outcomeOf]
  cases rest.findSome? failure? with
  | some failed => rfl
  | none =>
      refine congrArg Except.ok ?_
      dsimp only
      rw [List.countP_cons, Nat.add_comm]
      cases path.isEmpty <;> rfl

/-- Where all entries are drawings, the drawings are theirs. -/
theorem drawings_of_decode {entries : List Listing.Entry} (paths : List Path)
    (h : entries.map Listing.Entry.decode = paths.map .ok) :
    drawings entries = (entries.map Listing.Entry.kind).zip paths := by
  induction entries generalizing paths with
  | nil => rfl
  | cons entry rest ih =>
      cases paths with
      | nil => cases h
      | cons path paths =>
          obtain ⟨decoded, later⟩ := List.cons.inj h
          rw [drawings, decoded, List.map_cons, List.zip_cons_cons, ← ih paths later]

/-- Where all entries are drawings none fails. -/
theorem findSome?_failure?_of_decode {entries : List Listing.Entry} (paths : List Path)
    (h : entries.map Listing.Entry.decode = paths.map .ok) :
    entries.findSome? failure? = none := by
  rw [List.findSome?_eq_none_iff]
  intro entry mem
  have decoded : entry.decode ∈ paths.map .ok := by
    rw [← h]
    exact List.mem_map_of_mem mem
  obtain ⟨path, -, same⟩ := List.mem_map.mp decoded
  rw [failure?, ← same]

/-- Drawings that were written into a listing are its drawings, each attached to what it was written
for, and nothing in the listing fails. -/
theorem exists_listing {written : List Listing.ExportedDrawing} (nonempty : written ≠ [])
    (fine : ∀ drawing ∈ written, drawing.Fine) :
    ∃ source, Listing.exportedSource Zlib.store written = .ok source ∧
      drawings (Listing.entries source) = written.map (fun d => (d.kind, d.path)) ∧
      (Listing.entries source).findSome? failure? = none := by
  obtain ⟨source, made, decoded, kinds⟩ :=
    Listing.exists_entries_exportedSource Zlib.compresses_store nonempty fine
  have paths : (Listing.entries source).map Listing.Entry.decode =
      (written.map Listing.ExportedDrawing.path).map .ok := by
    rw [decoded, List.map_map]
    rfl
  refine ⟨source, made, ?_, findSome?_failure?_of_decode _ paths⟩
  rw [drawings_of_decode _ paths, kinds, List.zip_map']

/-- So are drawings that were written in one line each, if their numbers and their points are few
enough. -/
theorem exists_listing_of_lines (written : List (Listing.Keyword × Nat × Path))
    (nonempty : written ≠ [])
    (fine : ∀ drawing ∈ written,
      drawing.2.1 ≤ 999999999 ∧ drawing.2.2.length ≤ Record.capacity) :
    let lines := written.map fun (keyword, number, path) =>
      (⟨keyword, number, path, fun _ => [], []⟩ : Listing.ExportedDrawing)
    ∃ source, Listing.exportedSource Zlib.store lines = .ok source ∧
      drawings (Listing.entries source) = lines.map (fun d => (d.kind, d.path)) ∧
      (Listing.entries source).findSome? failure? = none := by
  intro lines
  refine exists_listing (mt List.map_eq_nil_iff.mp nonempty) fun line mem => ?_
  obtain ⟨drawing, written, rfl⟩ := List.mem_map.mp mem
  obtain ⟨small, fits⟩ := fine drawing written
  exact .of_one_line _ small fits

/-- The picture that an action saves. -/
def Action.saved? : Action → Option (String × Raster)
  | .save name raster => some (name, raster)
  | .note _ _ => none
  | .print _ => none

/-- The pictures that are saved, one after another. -/
def saves (actions : List Action) : List (String × Raster) := actions.filterMap Action.saved?

theorem saves_append (first second : List Action) :
    saves (first ++ second) = saves first ++ saves second :=
  List.filterMap_append

/-- Reading an entry decodes it, and makes notes that save nothing. -/
theorem exists_notes {entry : Listing.Entry} {result : Except DecodeError Path}
    (h : entry.decode = result) :
    ∃ notes, readEntry entry = (notes, result) ∧ saves notes = [] := by
  refine ⟨(readEntry entry).1, Prod.ext rfl ((readEntry_snd entry).trans h), ?_⟩
  rw [readEntry]
  cases Payload.unpack entry.payload with
  | error cause => rfl
  | ok unpacked => rfl

/-- The picture of a drawing under its name, drawn by a new renderer. -/
def freshPicture (directory stem : String) (fresh : Renderer Picture)
    (drawing : Listing.Kind × Path) : String × Raster :=
  (pictureName directory stem drawing.1, (fresh.render drawing.2).surface.raster)

variable {width height : Nat} {style : Style}

/-- Drawing a path and clearing it away leaves no marks. -/
theorem clean_clear_render {r : Renderer Picture}
    (h : Picture.Clean width height style r.surface) (path : Path) :
    Picture.Clean width height style (r.render path).clear.surface := by
  have framed : Picture.Framed width height style (r.render path).surface :=
    h.framed.applyAll _
  exact framed.clean_clear

/-! ## Entry by entry -/

section

variable (directory stem : String) (r : Renderer Picture) {entry : Listing.Entry} {path : Path}
  (rest : List Listing.Entry)

/-- An entry that is no drawing is the last one that is read. -/
theorem saves_pictures_of_error {cause : DecodeError} (h : entry.decode = .error cause) :
    saves (pictures directory stem r (entry :: rest)).actions = [] := by
  obtain ⟨notes, read, noted⟩ := exists_notes h
  rw [pictures, read]
  exact noted

/-- No picture is saved of a drawing without points. -/
theorem saves_pictures_of_isEmpty (h : entry.decode = .ok path) (empty : path.isEmpty = true) :
    saves (pictures directory stem r (entry :: rest)).actions =
      saves (pictures directory stem r rest).actions := by
  obtain ⟨notes, read, noted⟩ := exists_notes h
  rw [pictures, read]
  simp only [if_pos empty, Script.after, saves_append, noted]
  rfl

/-- A drawing with points is saved as the surface shows it, and cleared away. -/
theorem saves_pictures_of_points (h : entry.decode = .ok path) (points : path.isEmpty = false) :
    saves (pictures directory stem r (entry :: rest)).actions =
      (pictureName directory stem entry.kind, (r.render path).surface.raster) ::
        saves (pictures directory stem (r.render path).clear rest).actions := by
  obtain ⟨notes, read, noted⟩ := exists_notes h
  rw [pictures, read]
  simp only [if_neg (ne_true_of_eq_false points), Script.after, saves_append, noted]
  rfl

end

/-- **No picture shows what was drawn before it.** -/
theorem saves_pictures (directory stem : String) (speed : Speed) {r : Renderer Picture}
    (h : Picture.Clean width height style r.surface) (entries : List Listing.Entry) :
    saves (pictures directory stem r entries).actions =
      ((drawings entries).filter (!·.2.isEmpty)).map
        (freshPicture directory stem ⟨.blank width height style, speed, r.dotSize⟩) := by
  -- for every renderer whose surface is clean, since the one that is passed on is another one
  induction entries generalizing r with
  | nil => rfl
  | cons entry rest ih =>
      rw [drawings]
      cases decoded : entry.decode with
      | error cause =>
          rw [saves_pictures_of_error directory stem r rest decoded]
          rfl
      | ok path =>
          cases empty : path.isEmpty with
          | true =>
              rw [saves_pictures_of_isEmpty directory stem r rest decoded empty, ih h,
                List.filter_cons_of_neg (by simp [empty])]
          | false =>
              have shown := h.raster_applyAll r.speed speed r.dotSize path
              rw [saves_pictures_of_points directory stem r rest decoded empty,
                List.filter_cons_of_pos (by simp [empty]), List.map_cons,
                ih (clean_clear_render h path)]
              exact congrArg (fun raster => (_, raster) :: _) shown

/-- A run that saves pictures begins with a blank one. -/
theorem eq_pictures_of_script {a : Arguments} {settings : Settings} {speed : Speed}
    {listing directory : String} {entries : List Listing.Entry} {s : Script}
    (png : a.png = some directory) (done : script a settings speed listing entries = .ok s) :
    s = pictures directory (pictureStem listing)
      ⟨.blank settings.output.width settings.output.height settings.style, speed,
        settings.style.dotSize⟩ entries := by
  simp only [script, png, Picture.ofSize] at done
  cases checked : Raster.checkSize settings.output.width settings.output.height with
  | error cause =>
      rw [checked] at done
      cases done
  | ok _ =>
      rw [checked] at done
      exact (Except.ok.inj done).symm

end CommandLine

/-- **A renderer that was used draws as a new one.**  A picture that was cleared shows a path as a
new picture of its size and style does, whatever was drawn before.  A canvas that was cleared has
the marks that a new canvas has, with its pen at the same place, and shows none of them yet.  So
each picture that a run saves is given by the drawing and the settings, whatever other drawings
there are. -/
theorem render_clear_after :
    (∀ (width height : Nat) (style : Style) (speed : Speed) (dotSize : Float32)
      (turns : List Turn) (path : Path),
      let fresh : Renderer Picture := ⟨.blank width height style, speed, dotSize⟩
      ((fresh.after turns).clear.render path).surface.raster =
        (fresh.render path).surface.raster) ∧
    (∀ (used : Renderer Canvas) (style : Style) (path : Path), path.isEmpty = false →
      let fresh : Renderer Canvas := ⟨.blank style, used.speed, used.dotSize⟩
      Canvas.Alike (used.clear.render path).surface (fresh.render path).surface ∧
        Canvas.Waits (used.clear.render path).surface) ∧
    ∀ (a : Arguments) (settings : Settings) (speed : Speed) (listing directory : String)
      (entries : List Listing.Entry) (s : Script), a.png = some directory →
      script a settings speed listing entries = .ok s →
      saves s.actions = ((drawings entries).filter (!·.2.isEmpty)).map
        (freshPicture directory (pictureStem listing)
          ⟨.blank settings.output.width settings.output.height settings.style, speed,
            settings.style.dotSize⟩) := by
  refine ⟨?_, ?_, ?_⟩
  · intro width height style speed dotSize turns path fresh
    have framed : Picture.Framed width height style (fresh.after turns).surface :=
      Renderer.after_keeps (P := Picture.Framed width height style)
        (fun _ command framed => framed.apply command)
        (Picture.framed_blank width height style) turns
    have shown := framed.clean_clear.raster_applyAll (fresh.after turns).speed speed dotSize path
    have told : (fresh.after turns).dotSize = dotSize := fresh.dotSize_after turns
    show (applyAll (Surface.apply (fresh.after turns).surface .clear)
      (pathCommands (fresh.after turns).speed (fresh.after turns).dotSize path)).raster = _
    rw [told]
    exact shown
  · intro used style path points fresh
    have alike := Canvas.alike_clear_render used style points
    have waits : Canvas.Waits (fresh.render path).surface := Canvas.waits_render _ _ _ path
    exact ⟨alike, alike.revealed.trans waits.1, alike.banked.trans waits.2⟩
  · intro a settings speed listing directory entries s png done
    rw [eq_pictures_of_script png done]
    exact saves_pictures directory (pictureStem listing) speed (Picture.clean_blank _ _ _) entries

/-- A canvas in the middle of its work, with its pen down and time kept, is cleared and used again;
and of a listing of two drawings the second picture is the one that it has without the first. -/
theorem render_clear_after_two_drawings :
    let first : Path := ⟨[⟨100, 250⟩, .penUp, ⟨300, 4⟩]⟩
    let second : Path := ⟨[⟨5000, 60000⟩]⟩
    let canvas : Canvas :=
      ⟨#[.dot ⟨0, 0⟩ 1], 1, .fastest, .program, some ⟨0, 0⟩, .standard, .ofNanos 7, false⟩
    let used : Renderer Canvas := ⟨canvas, .fastest, 10⟩
    let asked : Arguments := { Arguments.none with png := some "out" }
    let fresh : Renderer Picture :=
      ⟨.blank Settings.standard.output.width Settings.standard.output.height
        Settings.standard.style, .fastest, Settings.standard.style.dotSize⟩
    ¬ Canvas.Waits used.surface ∧ second.isEmpty = false ∧
    Canvas.Alike (used.clear.render second).surface
      (Renderer.render ⟨.blank .standard, .fastest, 10⟩ second).surface ∧
    Canvas.Waits (used.clear.render second).surface ∧
    ∃ source s,
      Listing.exportedSource Zlib.store
        [⟨.comment, 1, first, fun _ => [], []⟩, ⟨.label, 2, second, fun _ => [], []⟩] =
          .ok source ∧
      script asked .standard .fastest "drawing.txt" (Listing.entries source) = .ok s ∧
      saves s.actions =
        [("out/drawing-comment-1.png", (fresh.render first).surface.raster),
          ("out/drawing-label-2.png", (fresh.render second).surface.raster)] := by
  intro first second canvas used asked fresh
  obtain ⟨-, canvases, runs⟩ := render_clear_after
  obtain ⟨alike, waits⟩ := canvases used .standard second rfl
  obtain ⟨source, made, all, -⟩ := exists_listing_of_lines
    [(.comment, 1, first), (.label, 2, second)] (List.cons_ne_nil _ _) (by decide)
  have done : script asked .standard .fastest "drawing.txt" (Listing.entries source) =
      .ok (pictures "out" "drawing" fresh (Listing.entries source)) := rfl
  refine ⟨fun rest => absurd rest.1 (by decide), rfl, alike, waits, source, _, made, done, ?_⟩
  have names : pictureName "out" (pictureStem "drawing.txt") (.comment 1) =
        "out/drawing-comment-1.png" ∧
      pictureName "out" (pictureStem "drawing.txt") (.label 2) = "out/drawing-label-2.png" := by
    decide
  rw [runs asked .standard .fastest "drawing.txt" "out" (Listing.entries source) _ rfl done, all]
  rw [← names.1, ← names.2]
  rfl

end PenDrawing
