import PenDrawing.CommandLine.Run
import PenDrawing.Files.Tree

/-!
# Runs on a tree of files

A rehearsal is a run whose files are those of a tree, and whose lines are kept, complaints apart. It
has no effects, so what a run does can be computed, and stated.

* **`Stage`** is what a rehearsal works on.
* **`rehearse`** is the stage after a run, and the number that the run ends with.
-/

namespace PenDrawing.CommandLine

/-- Files, the settings document beside the program, and the lines that were shown. -/
structure Stage where
  tree : Files.Tree
  installed : Option (List UInt8)
  lines : Array Line

/-- A run on a stage. -/
abbrev Rehearsal := StateM Stage

/-- Where the settings document beside the program is. -/
def installedName : String := "/usr/local/bin/config.toml"

/-- Changes the tree of a stage. -/
def onTree {α : Type} (f : Files.Tree → Files.Tree × α) : Rehearsal α :=
  modifyGet fun stage =>
    let (tree, result) := f stage.tree
    (result, { stage with tree })

/-- Adds a line to those that were shown. -/
def keepLine (line : Line) : Rehearsal Unit :=
  modify fun stage => { stage with lines := stage.lines.push line }

instance : Host Rehearsal where
  read name := return (← get).tree.read name
  readInstalled := return (← get).installed.map fun bytes => (installedName, bytes)
  makeDirectories name := onTree (·.makeDirectories name)
  save name raster := onTree (·.save name raster)
  print text := keepLine (.printed text)
  note level text := keepLine (.note level text)
  complain _ := pure ()

/-- A run on a tree of files: the number it ends with, and the stage after it. -/
def rehearse (arguments : List String) (tree : Files.Tree) (installed : Option (List UInt8)) :
    UInt32 × Stage :=
  (run arguments : Rehearsal UInt32).run ⟨tree, installed, #[]⟩

end PenDrawing.CommandLine
