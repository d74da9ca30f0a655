import PenDrawing.CommandLine.Arguments
import PenDrawing.CommandLine.Host
import PenDrawing.Lettering.Layout
import PenDrawing.Listing.Cursor
import PenDrawing.Settings

/-!
# A run of the program

A run does what a command line asks for: it prints the version, or the payload of a text, or it
takes a listing and prints the commands of its drawings or saves pictures of them. What stops a run
is a **`Failure`**; it is noted, and the run counts as failed.

* **`findSettings`** looks for settings: those that were named have to be right; of the others those
  beside the program come before those in the directory of the run, and none are needed.
* **`drawEntries`** does what is to be done for the entries of a listing.
* **`showDrawings`** is a run with a listing, **`showPayload`** one with a text.
* **`run`** is the whole, with the number that the program ends with.
-/

namespace PenDrawing

/-! ## Loading -/

/-- Why a settings document cannot be loaded. -/
inductive LoadError where
  | file (cause : Files.Error)
  | settings (cause : SettingsError)

/-- The text that reports an error, with the place where it was met. -/
def LoadError.report : LoadError → String
  | .file cause => cause.message
  | .settings cause => cause.report

/-- The settings of a document that was read. -/
def Settings.load (content : Except Files.Error (List UInt8)) : Except LoadError Settings :=
  match Files.textOf content with
  | .error cause => .error (.file cause)
  | .ok text =>
    match Settings.parse text with
    | .error cause => .error (.settings cause)
    | .ok settings => .ok settings

namespace CommandLine

/-! ## Failures -/

/-- What stops a run. -/
inductive Failure where
  | settings (cause : LoadError)
  | speed (cause : SpeedError)
  | listing (name : String) (cause : Files.Error)
  | directory (cause : Files.Error)
  /-- Pictures of the size that the settings ask for cannot be kept. -/
  | size (cause : SizeError)
  | picture (cause : Files.Error)
  | entry (cause : EntryError)
  | text (cause : Lettering.Error)
  | path (cause : TooManyPoints)
  | noListing
  /-- Neither commands nor pictures were asked for, and there is no window to draw in. -/
  | noWindow

/-- The text that reports a failure. -/
def Failure.message : Failure → String
  | .settings cause => cause.report
  | .speed cause => cause.message
  | .listing name cause => s!"{name}: {cause.message}"
  | .directory cause => cause.message
  | .size cause => cause.message
  | .picture cause => cause.message
  | .entry cause => cause.message
  | .text cause => cause.message
  | .path cause => cause.message
  | .noListing => "no program file given"
  | .noWindow => "no window to draw in, use --dump or --png"

variable {m : Type → Type} [Monad m] [Host m]

/-- A step of a run. -/
abbrev Step (m : Type → Type) := ExceptT Failure m

/-- Makes a note, of level `debug` only if such notes are asked for. -/
def remark (debug : Bool) (level : Level) (text : String) : m Unit := do
  if debug || level ≠ .debug then Host.note level text

/-- What is done outside of a run, and cannot make it fail by itself. -/
def outside {α : Type} (action : m α) : Step m α := ExceptT.lift action

/-- What has to go well, or else the run fails. -/
def require {ε α : Type} (failure : ε → Failure) : Except ε α → Step m α
  | .ok a => pure a
  | .error cause => throw (failure cause)

/-! ## Settings -/

/-- The settings document in the directory of a run. -/
def usualConfig : String := "config.toml"

/-- The settings of a document, with a note if they are right. -/
def loadSettings (debug : Bool) (name : String) (content : Except Files.Error (List UInt8)) :
    m (Except LoadError Settings) := do
  let loaded := Settings.load content
  if loaded.isOk then remark debug .debug s!"Loaded config from {name}"
  return loaded

/-- The settings of a document by name. -/
def namedSettings (debug : Bool) (name : String) : m (Except LoadError Settings) := do
  loadSettings debug name (← Host.read name)

/-- The settings beside the program, if they are right. -/
def installedSettings (debug : Bool) : m (Option Settings) := do
  match ← Host.readInstalled with
  | none => return none
  | some (name, bytes) => return (← loadSettings debug name (.ok bytes)).toOption

/-- The settings that no argument names. -/
def usualSettings (debug : Bool) : m Settings := do
  match ← installedSettings debug with
  | some settings => return settings
  | none =>
    match ← namedSettings debug usualConfig with
    | .ok settings => return settings
    | .error cause =>
      remark debug .warning s!"No config loaded ({cause.report}), using defaults"
      return .standard

/-- The settings of a run. -/
def findSettings (a : Arguments) : Step m Settings := do
  match a.config with
  | some name => require .settings (← outside (namedSettings a.debug name))
  | none => outside (usualSettings a.debug)

/-- The speed of a run: that of the arguments before that of the settings. -/
def findSpeed (a : Arguments) (settings : Settings) : Except SpeedError Speed :=
  match a.speed with
  | some speed => .ok speed
  | none => settings.defaultSpeed

/-! ## Drawings -/

/-- The start of the names of pictures. -/
def pictureStem (listing : String) : String := (Files.stem? listing).getD "program"

/-- What is done for the entries of a listing. -/
def script (a : Arguments) (settings : Settings) (speed : Speed) (listing : String)
    (entries : List Listing.Entry) : Except SizeError Script :=
  let dotSize := settings.style.dotSize
  match a.png with
  | some directory => do
    let size := settings.output
    let picture ← Picture.ofSize size.width size.height settings.style
    return pictures directory (pictureStem listing) ⟨picture, speed, dotSize⟩ entries
  | none => return dump ⟨Recording.empty, speed, dotSize⟩ entries

/-- Does what a script says, and comes out as the script does. -/
def runScript (debug : Bool) (s : Script) : Step m Nat := do
  require .picture (← outside (perform debug s.actions))
  require .entry s.outcome

/-- Draws the entries of a listing, and gives the number of drawings that had something to show.
Pictures need their directory, which is made if it is not there. -/
def drawEntries (a : Arguments) (settings : Settings) (speed : Speed) (listing : String)
    (entries : List Listing.Entry) : Step m Nat := do
  if let some directory := a.png then
    require .directory (← outside (Host.makeDirectories directory))
  runScript a.debug (← require .size (script a settings speed listing entries))

/-- Shows the drawings of a listing. -/
def showDrawings (a : Arguments) : Step m Unit := do
  let settings ← findSettings a
  let speed ← require .speed (findSpeed a settings)
  let some listing := a.program | throw .noListing
  let source ← require (.listing listing) (Files.textOf (← outside (Host.read listing)))
  let drawn ← drawEntries a settings speed listing (Listing.entries source.toList)
  if drawn = 0 then outside (remark a.debug .warning s!"No drawings found in {listing}")

/-- The note that a path was compressed. -/
def packNote (path : Path) (stream : List UInt8) : String :=
  s!"Compressed {path.length} points into {stream.length} bytes"

/-- Prints the payload of a text. -/
def showPayload (a : Arguments) (text : String) : Step m Unit := do
  let path ← require .text (Lettering.write text.toList)
  let stream ← require .path (Payload.pack Zlib.store path)
  outside (remark a.debug .debug (packNote path stream))
  outside (Host.print (String.ofList (Payload.ofStream stream)))

/-- Does what arguments say. -/
def runArguments (a : Arguments) : Step m Unit :=
  match a.encodeText with
  | some text => showPayload a text
  | none => if a.dump || a.png.isSome then showDrawings a else throw .noWindow

/-! ## The whole run -/

/-- The name and the version of the program. -/
def version : String := "hrmvis 0.1.0"

/-- What arguments may be. -/
def usage : String := "Usage: hrmvis [OPTIONS] [PROGRAM]"

/-- How a run ends that cannot go on: with a note, or with a complaint where no picture of the size
that was asked for can be kept. -/
def stop (debug : Bool) (failure : Failure) : m UInt32 := do
  match failure with
  | .size cause => Host.complain cause.message; return 101
  | failure => remark debug .error failure.message; return 1

/-- Does what a command line asks for; the number says how it went. -/
def run (arguments : List String) : m UInt32 := do
  match Request.ofArguments arguments with
  | .version => Host.print version; return 0
  | .help => Host.print usage; return 0
  | .refused cause => Host.complain cause.message; return 2
  | .run a =>
    match ← (runArguments a : Step m Unit).run with
    | .ok () => return 0
    | .error failure => stop a.debug failure

end CommandLine

end PenDrawing
