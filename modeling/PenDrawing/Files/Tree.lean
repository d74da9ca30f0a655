import PenDrawing.Files.Error
import PenDrawing.Files.Name
import PenDrawing.Png

/-!
# A tree of files

A tree says what stands at which place: a directory, a file of bytes, or the file of a picture. All
operations are pure: they give the tree as it is afterwards.

* **`Tree.read`** gives the bytes of a file.
* **`Tree.save`** puts a picture in, in place of what was there.
* **`Tree.makeDirectories`** makes a directory with all directories above it that are missing.
-/

namespace PenDrawing.Files

/-- What stands at a place. -/
inductive Node where
  | directory
  | file (bytes : List UInt8)
  | picture (raster : Raster)

/-- What stands at each place. The directory of a run, those above it and the root are always
there. -/
structure Tree where
  nodes : List (Spot × Node)

namespace Tree

/-- A tree without files. -/
def empty : Tree := ⟨[]⟩

/-- The directories that stand in the root on every computer. -/
def usualDirectories : List String :=
  ["bin", "boot", "dev", "etc", "home", "lib", "media", "mnt", "opt", "proc", "root", "run", "sbin",
    "srv", "sys", "tmp", "usr", "var"]

/-- A tree without files but those that stand outside of the directory of a run on every computer:
the usual directories, and the file that is always empty. -/
def usual : Tree :=
  ⟨usualDirectories.map (fun name => ([root, name], .directory)) ++
    [([root, "dev", "null"], .file [])]⟩

/-- What stands at a place. -/
def find? (t : Tree) (spot : Spot) : Option Node :=
  if spot.isBase then some .directory
  else (t.nodes.find? (·.1 = spot)).map (·.2)

/-- The nodes with another one at a place. -/
def putNode (spot : Spot) (node : Node) : List (Spot × Node) → List (Spot × Node)
  | [] => [(spot, node)]
  | entry :: rest =>
    if entry.1 = spot then (spot, node) :: rest else entry :: putNode spot node rest

/-- The tree with another node at a place. -/
def put (t : Tree) (spot : Spot) (node : Node) : Tree := ⟨putNode spot node t.nodes⟩

/-! ## Finding the way -/

/-- Where parts lead to from a directory, each of them to a directory. -/
def walk (t : Tree) : Spot → List String → Except Error Spot
  | spot, [] => .ok spot
  | spot, part :: rest =>
    if part = here then t.walk spot rest
    else if part = up then t.walk spot.above rest
    else if isPartTooLong part then .error .nameTooLong
    else
      match t.find? (spot ++ [part]) with
      | none => .error .missing
      | some .directory => t.walk (spot ++ [part]) rest
      | some _ => .error .notADirectory

/-- Where parts lead to from a directory, of which the last one need not be there yet; no place if
the last part is no name. -/
def locate (t : Tree) (start : Spot) (parts : List String) : Except Error (Option Spot) :=
  match parts.getLast? with
  | none => .ok none
  | some last => do
    let directory ← t.walk start parts.dropLast
    if last = here ∨ last = up then return none
    else if isPartTooLong last then .error .nameTooLong
    else return some (directory ++ [last])

/-- Where a name leads to. -/
def locateName (t : Tree) (name : String) : Except Error (Option Spot) :=
  if isTooLong name then .error .nameTooLong else t.locate (startOf name) (parts name)

/-- All parts lead to directories. -/
def isDirectory (t : Tree) (start : Spot) (parts : List String) : Bool :=
  (t.walk start parts).isOk

/-! ## Files -/

/-- The bytes of a file. -/
def read (t : Tree) (name : String) : Except Error (List UInt8) := do
  match ← t.locateName name with
  | none => .error .isADirectory
  | some spot =>
    match t.find? spot with
    | none => .error .missing
    | some .directory => .error .isADirectory
    | some (.file bytes) => .ok bytes
    | some (.picture raster) => .ok (Png.encode raster)

/-- The tree with the file of a picture, or why there is none. The file is made before it is written
to, so a picture without pixels leaves an empty one. -/
def save (t : Tree) (name : String) (raster : Raster) : Tree × Except Error Unit :=
  match t.locateName name with
  | .error cause => (t, .error cause)
  | .ok none => (t, .error .isADirectory)
  | .ok (some spot) =>
    match t.find? spot with
    | some .directory => (t, .error .isADirectory)
    | _ =>
      if raster.width = 0 then (t.put spot (.file []), .error .noWidth)
      else if raster.height = 0 then (t.put spot (.file []), .error .noHeight)
      else (t.put spot (.picture raster), .ok ())

/-! ## Directories -/

/-- Makes one directory. -/
def makeDirectory (t : Tree) (start : Spot) (parts : List String) : Except Error Tree := do
  match ← t.locate start parts with
  | none => .error .alreadyThere
  | some spot =>
    match t.find? spot with
    | some _ => .error .alreadyThere
    | none => .ok (t.put spot .directory)

/-- Parts without those at their end that stay where they are. -/
def dropHere (parts : List String) : List String := (parts.reverse.dropWhile (· = here)).reverse

/-- The parts that lead to the directory above. -/
def above (parts : List String) : List String := dropHere (dropHere parts).dropLast

theorem length_dropHere_le (parts : List String) : (dropHere parts).length ≤ parts.length := by
  have := (List.dropWhile_sublist (· = here) (l := parts.reverse)).length_le
  simpa [dropHere] using this

/-- The way to the directory above is shorter, so making directories comes to an end. -/
theorem length_above_lt {parts : List String} (h : parts ≠ []) :
    (above parts).length < parts.length := by
  have outer := length_dropHere_le (dropHere parts).dropLast
  have inner := length_dropHere_le parts
  have pos := List.length_pos_iff.2 h
  rw [List.length_dropLast] at outer
  rw [above]
  omega

/-- Makes a directory; one that is there already will do. -/
def makeOne (t : Tree) (start : Spot) (parts : List String) : Tree × Except Error Unit :=
  match t.makeDirectory start parts with
  | .ok t => (t, .ok ())
  | .error cause => (t, if t.isDirectory start parts then .ok () else .error cause)

/-- Makes a directory, and where one above it is missing, that one first. -/
def makeAll (t : Tree) (start : Spot) (parts : List String) : Tree × Except Error Unit :=
  if _empty : parts = [] then (t, .ok ())
  else
    match t.makeOne start parts with
    | (t, .error .missing) =>
      match t.makeAll start (above parts) with
      | (t, .ok ()) => t.makeOne start parts
      | (t, .error cause) => (t, .error cause)
    | done => done
termination_by parts.length
decreasing_by exact length_above_lt _empty

/-- Makes the directory of a name with all directories above it that are missing. -/
def makeDirectories (t : Tree) (name : String) : Tree × Except Error Unit :=
  if isTooLong name then (t, .error .nameTooLong) else t.makeAll (startOf name) (steps name)

/-- The tree with a file and the directories above it, where these can be there. -/
def addFile (t : Tree) (name : String) (bytes : List UInt8) : Tree :=
  let (t, _) := t.makeAll (startOf name) (steps name).dropLast
  match t.locateName name with
  | .ok (some spot) => t.put spot (.file bytes)
  | _ => t

end Tree

end PenDrawing.Files
