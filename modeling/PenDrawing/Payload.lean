import PenDrawing.Base64
import PenDrawing.Record
import PenDrawing.Text.Blank
import PenDrawing.Zlib.Inflate
import PenDrawing.Zlib.Stored

/-!
# Payloads: paths as text

A payload is the base64 text of a compressed record, with a `;` at its end. It may be wrapped
anywhere, it may lack the `;`, and its last base64 group need not be filled up.

* **`Payload.decode`** reads a payload, in the steps `symbols`, `unpack` and `Record.read`.
* **`Payload.encodeWith`** writes one, whatever the way its record is compressed.
-/

namespace PenDrawing

/-- Why a payload does not stand for a path. -/
inductive DecodeError where
  | base64 (cause : Base64.Error)
  | compression (cause : Zlib.Error)
  | record (cause : RecordError)
deriving DecidableEq, Repr

/-- The text that reports an error. -/
def DecodeError.message : DecodeError → String
  | .base64 cause => s!"payload is not valid base64: {cause.message}"
  | .compression cause => s!"payload is not a valid zlib stream: {cause.message}"
  | .record cause => cause.message

namespace Payload

/-- The character that ends a payload. -/
def terminator : Char := ';'

/-- The text without one terminator at its end. -/
def dropTerminator (cs : List Char) : List Char :=
  if cs.getLast? = some terminator then cs.dropLast else cs

/-- The base64 symbols of a payload: blanks around it, one terminator and all wrapping go. -/
def symbols (text : List Char) : List UInt8 :=
  ((dropTerminator (Text.trimBlank text)).filter (!Text.isWrap ·)).flatMap String.utf8EncodeChar

/-- What is in a payload before its record is read. -/
structure Unpacked where
  /-- The base64 symbols, the last group filled up. -/
  symbols : List UInt8
  /-- The bytes they stand for, decompressed. -/
  record : List UInt8
deriving DecidableEq, Repr

/-- Takes the text form off a record. One byte more than a record has is enough to see that a
record is too long, so nothing past it is decompressed. -/
def unpack (text : List Char) : Except DecodeError Unpacked := do
  let padded := Base64.pad (symbols text)
  let stream ← (Base64.decode padded).mapError .base64
  let record ← (Zlib.inflateUpTo (Record.size + 1) stream).mapError .compression
  return ⟨padded, record⟩

/-- Reads the record of an unpacked payload. -/
def Unpacked.path (unpacked : Unpacked) : Except DecodeError Path :=
  match Record.read unpacked.record with
  | .error cause => .error (.record cause)
  | .ok path => .ok path

/-- The path that a payload stands for. -/
def decode (text : List Char) : Except DecodeError Path :=
  match unpack text with
  | .error cause => .error cause
  | .ok unpacked => unpacked.path

/-- The compressed record of a path. -/
def pack (compress : List UInt8 → List UInt8) (path : Path) : Except TooManyPoints (List UInt8) :=
  match Record.write path with
  | .error cause => .error cause
  | .ok record => .ok (compress record)

/-- The base64 text of compressed bytes. -/
def letters (stream : List UInt8) : List Char :=
  (Base64.encode stream).map fun b => Char.ofNat b.toNat

/-- The payload that holds compressed bytes. -/
def ofStream (stream : List UInt8) : List Char := letters stream ++ [terminator]

/-- The payload of a path, its record compressed in a given way. -/
def encodeWith (compress : List UInt8 → List UInt8) (path : Path) :
    Except TooManyPoints (List Char) :=
  match pack compress path with
  | .error cause => .error cause
  | .ok stream => .ok (ofStream stream)

/-- The payload of a path, its record in stored blocks. -/
def encode (path : Path) : Except TooManyPoints (List Char) := encodeWith Zlib.store path

end Payload

end PenDrawing
