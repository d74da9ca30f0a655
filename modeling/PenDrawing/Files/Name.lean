/-!
# Names of files

A name leads through directories to a file; its parts stand between slashes. It starts from the
directory of a run, and with a slash in front from the root of all files. The part `.` stays where
it is, and `..` goes up. Names and their parts have a greatest length.

* A **`Spot`** is where a name leads to.
* **`parts`** are the parts of a name; a slash at its end asks for a directory, as a last `.` does.
* **`inside`** is the name of a file in a directory.
* **`stem?`** is the last part without its extension, **`extension?`** what the last part has behind
  its last dot.
-/

namespace PenDrawing.Files

/-- The part that stays where it is. -/
def here : String := "."

/-- The part that goes up. -/
def up : String := ".."

/-- The root of all files. -/
def root : String := "/"

/-- The most bytes that a name has. -/
def nameLimit : Nat := 4095

/-- The most bytes that a part of a name has. -/
def partLimit : Nat := 255

/-- A name has too many bytes. -/
def isTooLong (name : String) : Bool := nameLimit < name.utf8ByteSize

/-- A part of a name has too many bytes. -/
def isPartTooLong (part : String) : Bool := partLimit < part.utf8ByteSize

/-! ## Spots -/

/-- A place among files: the parts that lead to it from the directory of a run. A place above that
directory has a `..` in front for each step up, and one that is told from the root has the root. -/
abbrev Spot := List String

/-- The place where a name starts. -/
def startOf (name : String) : Spot := if name.toList.head? = some '/' then [root] else []

/-- The directory of a run, one above it, or the root. -/
def Spot.isBase (spot : Spot) : Bool := spot = [root] || spot.all (· = up)

/-- The place above a place; above the root there is the root. -/
def Spot.above (spot : Spot) : Spot :=
  if spot = [root] then spot
  else if spot.isBase then up :: spot
  else spot.dropLast

/-- The place lies in the directory of a run. -/
def Spot.isWithin (spot : Spot) : Bool :=
  match spot.head? with
  | some part => part ≠ root && part ≠ up
  | none => true

/-! ## Parts -/

/-- The parts of a name, without the empty ones between two slashes. -/
def steps (name : String) : List String :=
  ((name.toList.splitOn '/').filter (!·.isEmpty)).map String.ofList

/-- The name asks for a directory by a slash at its end. -/
def endsInSlash (name : String) : Bool := name.toList.getLast? = some '/'

/-- The parts of a name. -/
def parts (name : String) : List String :=
  if endsInSlash name then steps name ++ [here] else steps name

/-- The name of a file in a directory. -/
def inside (directory file : String) : String :=
  if endsInSlash directory then directory ++ file else directory ++ "/" ++ file

/-- What stands before the last dot of a part of a name, and what stands behind it, if both a dot
and something before it are there. -/
def splitExtension? (part : List Char) : Option (List Char × List Char) :=
  match (part.reverse.dropWhile (· ≠ '.')).tail.reverse with
  | [] => none
  | stem => some (stem, part.drop (stem.length + 1))

/-- A part of a name without its extension. -/
def dropExtension (part : List Char) : List Char :=
  match splitExtension? part with
  | some (stem, _) => stem
  | none => part

/-- The extension of a part of a name. -/
def extension? (part : String) : Option String :=
  (splitExtension? part.toList).map fun (_, extension) => String.ofList extension

/-- The last part of a name without its extension, if it is a name of its own. -/
def stem? (name : String) : Option String :=
  match (steps name).getLast? with
  | none => none
  | some part => if part = up then none else some (String.ofList (dropExtension part.toList))

end PenDrawing.Files
