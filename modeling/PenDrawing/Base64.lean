/-!
# Base64: bytes as text

Three bytes are four symbols of six bits each. The text may end in a group that is filled up with
`=`; bits that such a group has to spare must be zero, so no two texts stand for the same bytes.

* **`decode`** reads a text group by group, and names the first symbol that is out of place.
* **`encode`** writes the symbols without filling up the last group.
* **`pad`** fills up the last group of a text. It never needs three `=` for a text that `encode`
  wrote, and adds three to a text that no bytes have.
-/

namespace PenDrawing.Base64

/-- Why a text is not base64. -/
inductive Error where
  /-- A symbol that is not in the alphabet, or a `=` out of place. -/
  | symbol (byte : UInt8) (offset : Nat)
  /-- The last symbol has bits that no byte takes. -/
  | lastSymbol (byte : UInt8) (offset : Nat)
deriving DecidableEq, Repr

/-- The text that reports an error. -/
def Error.message : Error → String
  | .symbol byte offset => s!"Invalid symbol {byte}, offset {offset}."
  | .lastSymbol byte offset => s!"Invalid last symbol {byte}, offset {offset}."

/-- The sign that fills up a group, `=`. -/
def filler : UInt8 := 61

/-- The six bits of a symbol: capital letters, small letters, digits, `+`, `/`. -/
def sextet? (b : UInt8) : Option Nat :=
  let n := b.toNat
  if 65 ≤ n ∧ n ≤ 90 then some (n - 65)
  else if 97 ≤ n ∧ n ≤ 122 then some (n - 71)
  else if 48 ≤ n ∧ n ≤ 57 then some (n + 4)
  else if n = 43 then some 62
  else if n = 47 then some 63
  else none

/-- The symbol of six bits. -/
def symbol (v : Nat) : UInt8 :=
  UInt8.ofNat <|
    if v < 26 then v + 65
    else if v < 52 then v + 71
    else if v < 62 then v - 4
    else if v = 62 then 43
    else 47

/-! ## Reading -/

/-- The bits of the symbol at an offset. -/
def sextetAt (offset : Nat) (b : UInt8) : Except Error Nat :=
  match sextet? b with
  | some v => .ok v
  | none => .error (.symbol b offset)

/-- The three bytes of 24 bits. -/
def tripleBytes (a b c d : Nat) : List UInt8 :=
  [UInt8.ofNat (a * 4 + b / 16), UInt8.ofNat (b % 16 * 16 + c / 4), UInt8.ofNat (c % 4 * 64 + d)]

/-- Reads a group that is not the last one. -/
def group (offset : Nat) (a b c d : UInt8) : Except Error (List UInt8) := do
  let v₀ ← sextetAt offset a
  let v₁ ← sextetAt (offset + 1) b
  let v₂ ← sextetAt (offset + 2) c
  let v₃ ← sextetAt (offset + 3) d
  return tripleBytes v₀ v₁ v₂ v₃

/-- Reads the last group. Its third and fourth symbols may be missing, which `=` shows; what
follows a `=` must be another one. -/
def lastGroup (offset : Nat) (a b c d : UInt8) : Except Error (List UInt8) := do
  let v₀ ← sextetAt offset a
  let v₁ ← sextetAt (offset + 1) b
  if c = filler then
    if d ≠ filler then .error (.symbol filler (offset + 2))
    else if v₁ % 16 ≠ 0 then .error (.lastSymbol b (offset + 1))
    else return (tripleBytes v₀ v₁ 0 0).take 1
  else
    let v₂ ← sextetAt (offset + 2) c
    if d = filler then
      if v₂ % 4 ≠ 0 then .error (.lastSymbol c (offset + 2))
      else return (tripleBytes v₀ v₁ v₂ 0).take 2
    else
      let v₃ ← sextetAt (offset + 3) d
      return tripleBytes v₀ v₁ v₂ v₃

/-- Reads a text whose first symbol stands at an offset. A last group of fewer than four symbols
reads as if it were filled up. -/
def decodeFrom (offset : Nat) : List UInt8 → Except Error (List UInt8)
  | [] => .ok []
  | [a] => lastGroup offset a filler filler filler
  | [a, b] => lastGroup offset a b filler filler
  | [a, b, c] => lastGroup offset a b c filler
  | [a, b, c, d] => lastGroup offset a b c d
  | a :: b :: c :: d :: rest => do
    let bytes ← group offset a b c d
    let more ← decodeFrom (offset + 4) rest
    return bytes ++ more

/-- The bytes that a text stands for. -/
def decode (text : List UInt8) : Except Error (List UInt8) := decodeFrom 0 text

/-! ## Writing -/

/-- The text of bytes; its last group is not filled up. -/
def encode : List UInt8 → List UInt8
  | [] => []
  | [x] => [symbol (x.toNat / 4), symbol (x.toNat % 4 * 16)]
  | [x, y] =>
    [symbol (x.toNat / 4), symbol (x.toNat % 4 * 16 + y.toNat / 16), symbol (y.toNat % 16 * 4)]
  | x :: y :: z :: rest =>
    symbol (x.toNat / 4) :: symbol (x.toNat % 4 * 16 + y.toNat / 16) ::
      symbol (y.toNat % 16 * 4 + z.toNat / 64) :: symbol (z.toNat % 64) :: encode rest

/-! ## Filling up -/

/-- How many `=` a text of some length lacks. -/
def paddingNeeded (length : Nat) : Nat := (4 - length % 4) % 4

/-- The text with its last group filled up. -/
def pad (text : List UInt8) : List UInt8 :=
  text ++ List.replicate (paddingNeeded text.length) filler

/-- A filled-up text has whole groups only. -/
theorem length_pad_mod (text : List UInt8) : (pad text).length % 4 = 0 := by
  simp only [pad, paddingNeeded, List.length_append, List.length_replicate]
  omega

end PenDrawing.Base64
