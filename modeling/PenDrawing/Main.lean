import PenDrawing.CommandLine.Run
import PenDrawing.Png

/-!
# The program

A run with the files of the computer, whose lines go to standard output.
-/

namespace PenDrawing.CommandLine

/-- What an error of the system says about a file. -/
def fileError : IO.Error → Files.Error
  | .noFileOrDirectory .. => .missing
  | .alreadyExists .. => .alreadyThere
  | other => .system other.toString

/-- What came of an action, with its error as a value. -/
def attempt {α : Type} (action : IO α) : IO (Except Files.Error α) := do
  match ← action.toBaseIO with
  | .ok a => return .ok a
  | .error cause => return .error (fileError cause)

/-- The bytes of a file of the computer. -/
def readBytes (name : String) : IO (List UInt8) := return (← IO.FS.readBinFile name).toList

/-- The settings document in the directory of the program. -/
def readBesideProgram : IO (Option (String × List UInt8)) := do
  let name := ((← IO.appPath).withFileName usualConfig).toString
  match ← attempt (readBytes name) with
  | .ok bytes => return some (name, bytes)
  | .error _ => return none

instance : Host IO where
  read name := attempt (readBytes name)
  readInstalled := readBesideProgram
  makeDirectories name := attempt (IO.FS.createDirAll name)
  save name raster :=
    if raster.width = 0 then return .error .noWidth
    else if raster.height = 0 then return .error .noHeight
    else attempt (IO.FS.writeBinFile name ⟨(Png.encode raster).toArray⟩)
  print text := IO.println (Line.printed text).text
  note level text := IO.println (Line.note level text).text
  complain text := IO.eprintln s!"error: {text}"

end PenDrawing.CommandLine

/-- Runs the program. -/
def main (arguments : List String) : IO UInt32 := PenDrawing.CommandLine.run arguments
