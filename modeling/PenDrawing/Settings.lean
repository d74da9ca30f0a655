import PenDrawing.Decimal.Shortest
import PenDrawing.Speed
import PenDrawing.Surface.Style
import PenDrawing.Text.Escaped
import PenDrawing.Toml.Document

/-!
# Settings

Settings say how large windows and pictures are, how drawings look and how fast they appear. Each
of them has a standard value, and a settings document replaces some: it has a section for each
group of settings, in which each setting has a key. Keys that mean nothing do not matter.

* A **`Field`** is one setting of a group, and **`readGroup`** reads a group from a section, which
  may also be an array of the settings in their order.
* **`Settings.ofEntries`** lays a document over the standard settings; the first value that does not
  fit is a **`TypeError`**, told with its place in the document.
-/

namespace PenDrawing

/-! ## Values that do not fit -/

/-- What a setting expects. -/
inductive Expected where
  /-- A whole number below `2 ^ 32`. -/
  | word
  /-- A whole number below `2 ^ 8`. -/
  | byte
  | number
  /-- Three numbers. -/
  | color
  /-- A section, under the name it is reported with. -/
  | group (name : String)
deriving DecidableEq, Repr

/-- The text that reports what was expected. -/
def Expected.text : Expected → String
  | .word => "u32"
  | .byte => "u8"
  | .number => "f32"
  | .color => "an array of length 3"
  | .group name => s!"struct {name}"

/-- Why a value does not fit. -/
inductive TypeError where
  | wrongKind (found : Toml.Value) (expected : Expected)
  | outOfRange (found : Int) (expected : Expected)
  | tooShort (length : Nat) (expected : Expected)

/-- The text of a number, which always shows a fraction. -/
def fractionText (x : Float) : String :=
  let text := Decimal.shortest Decimal.double (.ofDouble x)
  if x.isFinite && !text.contains '.' then text ++ ".0" else text

/-- The text that reports a value. -/
def kindText : Toml.Value → String
  | .string text => s!"string {Text.escaped text}"
  | .integer n => "integer \x60" ++ toString n ++ "\x60"
  | .float x => "floating point \x60" ++ fractionText x ++ "\x60"
  | .boolean b => "boolean \x60" ++ toString b ++ "\x60"
  | .moment _ => "map"
  | .array _ => "sequence"
  | .table _ _ => "map"
  | .tables _ => "sequence"

/-- The text that reports a value that does not fit. -/
def TypeError.message : TypeError → String
  | .wrongKind found expected => s!"invalid type: {kindText found}, expected {expected.text}"
  | .outOfRange found expected =>
    "invalid value: integer \x60" ++ toString found ++ s!"\x60, expected {expected.text}"
  | .tooShort length expected => s!"invalid length {length}, expected {expected.text}"

/-- What is read from a value, or why the value, or a part of it, does not fit. -/
abbrev Reading := Except (Toml.Located TypeError)

/-! ## Reading single values -/

/-- A whole number below a limit. -/
def readBounded (expected : Expected) (limit : Nat) : Toml.Located Toml.Value → Reading Nat
  | ⟨span, .integer n⟩ =>
    if 0 ≤ n ∧ n < limit then .ok n.toNat else .error ⟨span, .outOfRange n expected⟩
  | ⟨span, other⟩ => .error ⟨span, .wrongKind other expected⟩

/-- A whole number of four bytes. -/
def readWord : Toml.Located Toml.Value → Reading Nat := readBounded .word (Nat.pow 2 32)

/-- A whole number of one byte. -/
def readByte : Toml.Located Toml.Value → Reading Nat := readBounded .byte (Nat.pow 2 8)

/-- A number, to the nearest one of four bytes. -/
def readNumber : Toml.Located Toml.Value → Reading Float32
  | ⟨_, .integer n⟩ => .ok (Float32.ofInt n)
  | ⟨_, .float x⟩ => .ok (Decimal.narrow x)
  | ⟨span, other⟩ => .error ⟨span, .wrongKind other .number⟩

/-- The elements of an array. -/
def items? : Toml.Value → Option (List (Toml.Located Toml.Value))
  | .array items => some items
  | .tables items => some (items.map fun ⟨span, entries⟩ => ⟨span, .table .header entries⟩)
  | _ => none

/-- A colour: three numbers, and more do not matter. -/
def readColor (v : Toml.Located Toml.Value) : Reading Color :=
  match items? v.value with
  | none => .error ⟨v.span, .wrongKind v.value .color⟩
  | some items =>
    match items with
    | [] => .error ⟨v.span, .tooShort 0 .color⟩
    | [a] => do
      let _ ← readNumber a
      .error ⟨v.span, .tooShort 1 .color⟩
    | [a, b] => do
      let _ ← readNumber a
      let _ ← readNumber b
      .error ⟨v.span, .tooShort 2 .color⟩
    | a :: b :: c :: _ => return ⟨← readNumber a, ← readNumber b, ← readNumber c⟩

/-! ## Reading groups -/

/-- One setting of a group: its key, and the group with the setting read from a value. -/
structure Field (γ : Type) where
  key : String
  read : Toml.Located Toml.Value → γ → Reading γ

/-- A setting that a reader gives and `put` stores. -/
def Field.of {γ α : Type} (key : String) (reader : Toml.Located Toml.Value → Reading α)
    (put : α → γ → γ) : Field γ :=
  ⟨key, fun v group => (reader v).map (put · group)⟩

/-- The group with the setting of a key read; other keys do not matter. -/
def readEntry {γ : Type} (fields : List (Field γ)) (group : γ)
    (entry : String × Toml.Located Toml.Value) : Reading γ :=
  match fields.find? (·.key = entry.1) with
  | some field => field.read entry.2 group
  | none => .ok group

/-- The group with its settings read from a section: by key from a table, in order from an array.
A moment holds no setting. -/
def readGroup {γ : Type} (name : String) (fields : List (Field γ))
    (v : Toml.Located Toml.Value) (group : γ) : Reading γ :=
  match v.value with
  | .table _ entries => entries.foldlM (readEntry fields) group
  | .moment _ => .ok group
  | other =>
    match items? other with
    | some items => (items.zip fields).foldlM (fun group (v, field) => field.read v group) group
    | none => .error ⟨v.span, .wrongKind other (.group name)⟩

/-! ## The settings -/

/-- Width and height in pixels. -/
structure Size where
  width : Nat
  height : Nat
deriving DecidableEq, Repr

/-- All settings. -/
structure Settings where
  window : Size
  style : Style
  speed : Nat
  output : Size

namespace Settings

/-- The settings that hold where a document does not say otherwise. -/
def standard : Settings := ⟨⟨656, 656⟩, .standard, maxSpeed, ⟨420, 140⟩⟩

def sizeFields (width height : String) : List (Field Size) :=
  [.of width readWord fun n size => { size with width := n },
    .of height readWord fun n size => { size with height := n }]

def styleFields : List (Field Style) :=
  [.of "dot_size" readNumber fun x style => { style with dotSize := x },
    .of "pen_size" readNumber fun x style => { style with penSize := x },
    .of "background" readColor fun c style => { style with paper := c },
    .of "ink" readColor fun c style => { style with ink := c }]

def speedFields : List (Field Nat) := [.of "default" readByte fun n _ => n]

/-- The groups, each under the key of its section. -/
def groups : List (Field Settings) :=
  [⟨"window", fun v s =>
      (readGroup "WindowConfig" (sizeFields "width" "height") v s.window).map
        fun window => { s with window }⟩,
    ⟨"style", fun v s =>
      (readGroup "StyleConfig" styleFields v s.style).map fun style => { s with style }⟩,
    ⟨"speed", fun v s =>
      (readGroup "SpeedConfig" speedFields v s.speed).map fun speed => { s with speed }⟩,
    ⟨"output", fun v s =>
      (readGroup "OutputConfig" (sizeFields "image_width" "image_height") v s.output).map
        fun output => { s with output }⟩]

/-- The settings that a document's table stands for. -/
def ofEntries (entries : Toml.Entries) : Reading Settings :=
  entries.foldlM (readEntry groups) standard

/-- The speed that drawings have if nothing else is asked for. -/
def defaultSpeed (s : Settings) : Except SpeedError Speed := Speed.of s.speed

end Settings

/-- Why a text does not stand for settings. -/
inductive SettingsError where
  /-- The text is not a document. -/
  | notADocument
  /-- A value does not fit. -/
  | type (place : Toml.Excerpt) (cause : TypeError)

/-- The text that reports an error. -/
def SettingsError.message : SettingsError → String
  | .notADocument => "not a settings document"
  | .type _ cause => cause.message

/-- The text that reports an error with the place where it was met. -/
def SettingsError.report : SettingsError → String
  | .type place cause => place.text ++ cause.message ++ "\n"
  | cause => cause.message

/-- The settings that a text stands for. -/
def Settings.parse (text : String) : Except SettingsError Settings :=
  match Toml.parse text with
  | none => .error .notADocument
  | some entries =>
    match Settings.ofEntries entries with
    | .error ⟨span, cause⟩ => .error (.type (span.excerpt text.toList) cause)
    | .ok settings => .ok settings

end PenDrawing
