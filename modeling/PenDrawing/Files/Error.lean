/-!
# What goes wrong with files

The reasons why a file cannot be read or written, each with the text that reports it, and what it
takes for the bytes of a file to be text.
-/

namespace PenDrawing.Files

/-- Why a file or a directory cannot be used. -/
inductive Error where
  /-- There is nothing of that name. -/
  | missing
  /-- Something that is no directory stands where one has to be. -/
  | notADirectory
  /-- A directory stands where a file has to be. -/
  | isADirectory
  /-- What is to be made is there already, as something else. -/
  | alreadyThere
  /-- The name, or a part of it, has too many bytes. -/
  | nameTooLong
  /-- The bytes are no text. -/
  | notText
  /-- A picture without columns has no file. -/
  | noWidth
  /-- A picture without rows has no file. -/
  | noHeight
  /-- Any other trouble, in the words of the system. -/
  | system (text : String)
deriving DecidableEq, Repr

/-- The text that reports an error. -/
def Error.message : Error → String
  | .missing => "No such file or directory (os error 2)"
  | .notADirectory => "Not a directory (os error 20)"
  | .isADirectory => "Is a directory (os error 21)"
  | .alreadyThere => "File exists (os error 17)"
  | .nameTooLong => "File name too long (os error 36)"
  | .notText => "stream did not contain valid UTF-8"
  | .noWidth => "Zero width not allowed"
  | .noHeight => "Zero height not allowed"
  | .system text => text

/-- The text that bytes stand for. -/
def text (bytes : List UInt8) : Except Error String :=
  match String.fromUTF8? ⟨bytes.toArray⟩ with
  | some text => .ok text
  | none => .error .notText

/-- The text of a file that was read. -/
def textOf (content : Except Error (List UInt8)) : Except Error String := content.bind text

end PenDrawing.Files
