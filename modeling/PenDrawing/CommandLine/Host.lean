import PenDrawing.CommandLine.Script
import PenDrawing.Files.Error

/-!
# What a run needs from outside

A host reads and saves files, makes directories, and shows lines and notes. All that a run does
outside of itself goes through its host, so a run may have the files of a computer or those of a
tree that is a value.
-/

namespace PenDrawing.CommandLine

/-- What a run is done with. -/
class Host (m : Type → Type) where
  /-- The bytes of a file. -/
  read : String → m (Except Files.Error (List UInt8))
  /-- The name and the bytes of the settings document beside the program, if there is one. -/
  readInstalled : m (Option (String × List UInt8))
  /-- Makes a directory, with those above it. -/
  makeDirectories : String → m (Except Files.Error Unit)
  /-- Saves a picture. -/
  save : String → Raster → m (Except Files.Error Unit)
  /-- Shows a line. -/
  print : String → m Unit
  /-- Shows a note. -/
  note : Level → String → m Unit
  /-- Tells the user, apart from all other lines, that the command line is wrong. -/
  complain : String → m Unit

variable {m : Type → Type} [Monad m] [Host m]

/-- Does what a script says, up to the first picture that cannot be saved. Notes of level `debug`
are only made if they are asked for. -/
def perform (debug : Bool) : List Action → m (Except Files.Error Unit)
  | [] => return .ok ()
  | .print line :: rest => do
    Host.print line
    perform debug rest
  | .note level text :: rest => do
    if debug || level ≠ .debug then Host.note level text
    perform debug rest
  | .save name raster :: rest => do
    match ← Host.save name raster with
    | .error cause => return .error cause
    | .ok () => perform debug rest

end PenDrawing.CommandLine
