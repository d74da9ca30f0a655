import PenDrawing.Speed
import PenDrawing.Text.Digit

/-!
# What a command line asks for

A command line names a listing and says what is to be done with it. Options stand before or after
the listing. An option that has a value takes it from the same argument, behind `=`, or from the
next one, which then must not look like an option; after `--` nothing does. Arguments are looked at
from the first to the last, and the first one that is wrong, or that asks for the version or for
help, decides.

* **`readArguments`** reads the arguments one by one.
* **`Arguments.check`** looks at what does not go together.
* **`Request.ofArguments`** is both.
-/

namespace PenDrawing.CommandLine

/-- What is to be done. -/
structure Arguments where
  /-- The listing. -/
  program : Option String
  /-- The speed, instead of that of the settings. -/
  speed : Option Speed
  /-- The settings document, instead of the usual one. -/
  config : Option String
  /-- The directory for pictures. -/
  png : Option String
  /-- Print the commands of each drawing. -/
  dump : Bool
  /-- A text to print the payload of. -/
  encodeText : Option String
  /-- Show all notes. -/
  debug : Bool

/-- Nothing is to be done. -/
def Arguments.none : Arguments := ⟨.none, .none, .none, .none, false, .none, false⟩

/-- Why a command line asks for nothing. -/
inductive UsageError where
  | unknownOption (argument : String)
  | missingValue (option : String)
  | emptyValue (option : String)
  | needlessValue (option : String)
  | badSpeed (value : String)
  | repeated (option : String)
  | secondProgram (argument : String)
  | noProgram
  | dumpWithPng
deriving DecidableEq, Repr

/-- The text that reports an error. -/
def UsageError.message : UsageError → String
  | .unknownOption argument => s!"unexpected argument '{argument}'"
  | .missingValue option => s!"a value is required for '{option}'"
  | .emptyValue option => s!"the value for '{option}' must not be empty"
  | .needlessValue option => s!"'{option}' takes no value"
  | .badSpeed value => s!"'{value}' is not a speed from 0 to {maxSpeed}"
  | .repeated option => s!"'{option}' cannot be used multiple times"
  | .secondProgram argument => s!"unexpected argument '{argument}'"
  | .noProgram => "no program file given"
  | .dumpWithPng => "'--dump' cannot be used with '--png'"

/-- Why arguments are not looked at any further. -/
inductive Stop where
  | version
  | help
  | refused (cause : UsageError)
deriving DecidableEq, Repr

/-! ## Single arguments -/

/-- Options without a value. -/
inductive Switch where
  | dump
  | debug
  | version
  | help
deriving DecidableEq, Repr

/-- Options with a value. -/
inductive Choice where
  | speed
  | config
  | png
  | encodeText
deriving DecidableEq, Repr

/-- An option. -/
inductive Flag where
  | switch (which : Switch)
  | choice (which : Choice)
deriving DecidableEq, Repr

/-- The options by name. -/
def flags : List (String × Flag) :=
  [("--speed", .choice .speed), ("--config", .choice .config), ("--png", .choice .png),
    ("--encode-text", .choice .encodeText), ("--dump", .switch .dump),
    ("--debug", .switch .debug), ("--version", .switch .version), ("--help", .switch .help)]

/-- The options by letter. -/
def letters : List (Char × Flag) := [('V', .switch .version), ('h', .switch .help)]

/-- What an argument is on its own. -/
inductive Shape where
  /-- All that follows are no options. -/
  | divider
  /-- An option, its name, and the value in the same argument. -/
  | option (flag : Flag) (name : String) (value : Option String)
  /-- It looks like an option, but there is none of its name. -/
  | unknown
  /-- It does not look like an option. -/
  | plain
deriving DecidableEq, Repr

/-- The name of an option, and the value behind `=`. -/
def splitValue (cs : List Char) : List Char × Option (List Char) :=
  match cs.dropWhile (· ≠ '=') with
  | [] => (cs, none)
  | _ :: value => (cs.takeWhile (· ≠ '='), some value)

/-- What an argument is on its own. Of several letters in one argument the first decides, because no
letter lets the next one have its turn. -/
def Shape.of (argument : String) : Shape :=
  match argument.toList with
  | ['-', '-'] => .divider
  | '-' :: '-' :: _ =>
    let (name, value) := splitValue argument.toList
    let name := String.ofList name
    match flags.lookup name with
    | some flag => .option flag name (value.map String.ofList)
    | none => .unknown
  | '-' :: letter :: _ =>
    match letters.lookup letter with
    | some flag => .option flag argument none
    | none => .unknown
  | _ => .plain

/-- The whole number that a text stands for: digits, with a sign in front or none. -/
def wholeOfText? (text : String) : Option Int :=
  let value? (digits : List Char) : Option Int :=
    if digits.isEmpty then none else (Text.value? digits).map Int.ofNat
  match text.toList with
  | '+' :: digits => value? digits
  | '-' :: digits => (value? digits).map (-·)
  | digits => value? digits

/-- The speed that a text stands for: a whole number, in which zeros and a sign in front of them do
not matter. -/
def speedOfText? (text : String) : Option Speed :=
  match wholeOfText? text with
  | some (.ofNat n) => (Speed.of n).toOption
  | _ => none

/-! ## All arguments -/

namespace Arguments

/-- Says that an option has been given already. -/
def once {α : Type} (name : String) : Option α → Except Stop Unit
  | some _ => .error (.refused (.repeated name))
  | .none => .ok ()

/-- A value that must not be empty. -/
def nonempty (name value : String) : Except Stop String :=
  if value.isEmpty then .error (.refused (.emptyValue name)) else .ok value

/-- The arguments with the listing. -/
def addProgram (a : Arguments) (name : String) : Except Stop Arguments := do
  if a.program.isSome then .error (.refused (.secondProgram name))
  let program ← nonempty "PROGRAM" name
  return { a with program }

/-- The arguments with an option that has no value. -/
def turnOn (a : Arguments) (name : String) : Switch → Except Stop Arguments
  | .dump => if a.dump then .error (.refused (.repeated name)) else .ok { a with dump := true }
  | .debug => if a.debug then .error (.refused (.repeated name)) else .ok { a with debug := true }
  | .version => .error .version
  | .help => .error .help

/-- The arguments with an option that has a value. -/
def choose (a : Arguments) (name value : String) : Choice → Except Stop Arguments
  | .speed => do
    once name a.speed
    match speedOfText? value with
    | some speed => return { a with speed }
    | .none => .error (.refused (.badSpeed value))
  | .config => do
    once name a.config
    return { a with config := ← nonempty name value }
  | .png => do
    once name a.png
    return { a with png := ← nonempty name value }
  | .encodeText => do
    once name a.encodeText
    return { a with encodeText := value }

/-- What does not go together, or is missing. -/
def check (a : Arguments) : Except UsageError Arguments :=
  if a.dump ∧ a.png.isSome then .error .dumpWithPng
  else if a.program.isNone ∧ a.encodeText.isNone then .error .noProgram
  else .ok a

end Arguments

/-- Reads the arguments that follow those that were read. -/
def readArguments (a : Arguments) : List String → Except Stop Arguments
  | [] => .ok a
  | argument :: rest =>
    match Shape.of argument with
    | .divider => rest.foldlM Arguments.addProgram a
    | .unknown => .error (.refused (.unknownOption argument))
    | .plain => do readArguments (← a.addProgram argument) rest
    | .option (.switch which) name value =>
      if value.isSome then .error (.refused (.needlessValue name))
      else do readArguments (← a.turnOn name which) rest
    | .option (.choice which) name (some value) => do
      readArguments (← a.choose name value which) rest
    | .option (.choice which) name none =>
      match rest with
      | [] => .error (.refused (.missingValue name))
      | value :: rest =>
        if Shape.of value = .plain then do readArguments (← a.choose name value which) rest
        else .error (.refused (.missingValue name))

/-- What a command line asks for. -/
inductive Request where
  | version
  | help
  | refused (cause : UsageError)
  | run (arguments : Arguments)

/-- What the arguments ask for. -/
def Request.ofArguments (arguments : List String) : Request :=
  match readArguments .none arguments with
  | .error .version => .version
  | .error .help => .help
  | .error (.refused cause) => .refused cause
  | .ok a =>
    match a.check with
    | .ok a => .run a
    | .error cause => .refused cause

end PenDrawing.CommandLine
