import PenDrawing.Files.Name
import PenDrawing.Listing.Entry
import PenDrawing.Renderer
import PenDrawing.Surface.Picture
import PenDrawing.Surface.Recording
import PenDrawing.Text.Inert

/-!
# What is done for the drawings of a listing

A script says what is done for the drawings of a listing, one after another: lines to print, notes
to make, pictures to save. It ends with the number of drawings that had anything to show, or with
the first entry that is no drawing. One surface serves all drawings and is cleared between them.

* **`dump`** prints the commands of each drawing.
* **`pictures`** saves a picture of each drawing that is not empty.
-/

namespace PenDrawing.CommandLine

/-- How much a note matters. -/
inductive Level where
  | debug
  | info
  | warning
  | error
deriving DecidableEq, Repr

/-- The name of a level in front of its notes. -/
def Level.name : Level → String
  | .debug => "DEBUG"
  | .info => "INFO"
  | .warning => "WARN"
  | .error => "ERROR"

/-- A line that is shown: one that is printed, or a note. -/
inductive Line where
  | printed (text : String)
  | note (level : Level) (text : String)

/-- A line as it is shown. A note stands behind the name of its level, and steers no terminal. -/
def Line.text : Line → String
  | .printed text => text
  | .note level text => s!"{level.name} {Text.inert text}"

/-- Something that is done. -/
inductive Action where
  | note (level : Level) (text : String)
  | print (line : String)
  | save (name : String) (raster : Raster)

/-- An entry that is no drawing. -/
structure EntryError where
  kind : Listing.Kind
  cause : DecodeError
deriving DecidableEq, Repr

/-- The text that reports an entry that is no drawing. -/
def EntryError.message (e : EntryError) : String := s!"{e.kind.name}: {e.cause.message}"

/-- What is done, and then how many drawings had something to show. -/
structure Script where
  actions : List Action
  outcome : Except EntryError Nat

/-- Nothing is done. -/
def Script.empty : Script := ⟨[], .ok 0⟩

/-- A script with a drawing in front of it: what is done for it, and whether it counts. -/
def Script.after (actions : List Action) (counts : Bool) (s : Script) : Script :=
  ⟨actions ++ s.actions, s.outcome.map ((if counts then 1 else 0) + ·)⟩

/-! ## Entries -/

/-- The note that a payload was unpacked. -/
def unpackNote (u : Payload.Unpacked) : String :=
  s!"Decoded {u.symbols.length} base64 bytes into a {u.record.length} byte record"

/-- The drawing of an entry, and the notes that reading it makes. -/
def readEntry (entry : Listing.Entry) : List Action × Except DecodeError Path :=
  match Payload.unpack entry.payload with
  | .error cause => ([], .error cause)
  | .ok unpacked => ([.note .debug (unpackNote unpacked)], unpacked.path)

/-- Reading an entry decodes it. -/
theorem readEntry_snd (entry : Listing.Entry) : (readEntry entry).2 = entry.decode := by
  rw [readEntry, Listing.Entry.decode, Payload.decode]
  split <;> simp_all

/-! ## Printing commands -/

/-- The line above the commands of a drawing. -/
def heading (kind : Listing.Kind) (path : Path) : String :=
  s!"# {kind.name} ({path.length} points, {path.strokes.length} strokes)"

/-- Draws a path, clears it away, and takes what the surface was told. -/
def recordPath (r : Renderer Recording) (path : Path) : Array Command × Renderer Recording :=
  let told := (r.render path).clear
  let (commands, surface) := told.surface.take
  (commands, { told with surface })

/-- The commands of each drawing, under a heading. -/
def dump (r : Renderer Recording) : List Listing.Entry → Script
  | [] => .empty
  | entry :: rest =>
    match readEntry entry with
    | (notes, .error cause) => ⟨notes, .error ⟨entry.kind, cause⟩⟩
    | (notes, .ok path) =>
      let (commands, r) := recordPath r path
      (dump r rest).after
        (notes ++ [.print (heading entry.kind path), .note .debug (renderNote path)] ++
          commands.toList.map (.print ·.text))
        (!path.isEmpty)

/-! ## Saving pictures -/

/-- The file of the picture of an entry. -/
def pictureName (directory stem : String) (kind : Listing.Kind) : String :=
  Files.inside directory s!"{stem}-{kind.name}.png"

/-- The note that a picture was saved. -/
def savedNote (name : String) (path : Path) : String := s!"Wrote {name} ({path.length} points)"

/-- A picture of each drawing that has points, each in a file of its own name. -/
def pictures (directory stem : String) (r : Renderer Picture) : List Listing.Entry → Script
  | [] => .empty
  | entry :: rest =>
    match readEntry entry with
    | (notes, .error cause) => ⟨notes, .error ⟨entry.kind, cause⟩⟩
    | (notes, .ok path) =>
      if path.isEmpty then
        (pictures directory stem r rest).after
          (notes ++ [.note .debug s!"Skipping empty {entry.kind.name}"]) false
      else
        let drawn := r.render path
        let name := pictureName directory stem entry.kind
        (pictures directory stem drawn.clear rest).after
          (notes ++ [.note .debug (renderNote path), .save name drawn.surface.raster,
            .note .info (savedNote name path)])
          true

end PenDrawing.CommandLine
