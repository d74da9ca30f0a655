import PenDrawing.Toml.Scan
import PenDrawing.Toml.Value
import PenDrawing.Text.Digit

/-!
# Numbers

A whole number is written in base ten with a sign, or in base sixteen, eight or two with a prefix
and without a sign; it fits into 64 bits. A number has a fraction, an exponent or both. Single
underscores may stand between digits, and zeros that do not count may not stand in front.
-/

namespace PenDrawing.Toml

open Scan

/-- The least whole number that fits. -/
def leastInteger : Int := -Int.pow 2 63

/-- The largest whole number that fits. -/
def greatestInteger : Int := Int.pow 2 63 - 1

/-- Digits of a class with single underscores between them, which are left out. -/
def digitsOf (ok : Char → Bool) : Scan (List Char) := do
  let first ← satisfy ok
  let more ← many (satisfy ok <|> do char '_'; satisfy ok)
  return first :: more

/-- Digits of base ten. -/
def decimals : Scan (List Char) := digitsOf Text.isAsciiDigit

/-- Digits of base ten without a zero in front. -/
def counting : Scan (List Char) := do
  match ← peek with
  | some '0' => return [← satisfy (· == '0')]
  | _ => decimals

/-- A sign, and whether it is a minus. -/
def sign : Scan Bool := do
  match ← perhaps (satisfy fun c => c == '+' || c == '-') with
  | some '-' => return true
  | _ => return false

/-- A whole number, if it fits. -/
def fitting (n : Int) : Scan Value :=
  if leastInteger ≤ n ∧ n ≤ greatestInteger then pure (.integer n) else failure

/-- The value of a digit of base sixteen or less. -/
def radixValue (c : Char) : Nat :=
  if Text.isAsciiDigit c then c.toNat - 48
  else if c.toNat ≤ 70 then c.toNat - 55
  else c.toNat - 87

/-- A whole number in another base, behind its prefix. -/
def based (mark : String) (base : Nat) (ok : Char → Bool) : Scan Value := do
  word mark
  let digits ← digitsOf ok
  fitting (digits.foldl (fun n c => base * n + radixValue c) 0 : Nat)

/-- A digit of base sixteen. -/
def isHexDigit (c : Char) : Bool :=
  Text.isAsciiDigit c || (65 ≤ c.toNat && c.toNat ≤ 70) || (97 ≤ c.toNat && c.toNat ≤ 102)

/-- A whole number. -/
def integer : Scan Value :=
  based "0x" 16 isHexDigit <|> based "0o" 8 (fun c => 48 ≤ c.toNat && c.toNat ≤ 55) <|>
    based "0b" 2 (fun c => c == '0' || c == '1') <|> do
      let negative ← sign
      let n := Text.valueOf (← counting)
      fitting (if negative then -(n : Int) else n)

/-- The exponent of a number. -/
def exponent : Scan Int := do
  let _ ← satisfy fun c => c == 'e' || c == 'E'
  let negative ← sign
  let n := Text.valueOf (← decimals)
  return if negative then -(n : Int) else n

/-- The number nearest to `m * 10 ^ e`. -/
def nearest (m : Nat) (e : Int) : Float :=
  match e with
  | .ofNat e => Float.ofScientific m false e
  | .negSucc e => Float.ofScientific m true (e + 1)

/-- A number with a fraction, an exponent or both. One that is too large is refused; one that is too
far below zero is infinite. -/
def finite : Scan Value := do
  let negative ← sign
  let whole ← counting
  let fraction ← perhaps do char '.'; decimals
  let power ← perhaps exponent
  if fraction.isNone && power.isNone then failure
  else
    let places := fraction.getD []
    let x := nearest (Text.valueOf (whole ++ places)) (power.getD 0 - places.length)
    if x.isInf && !negative then failure else return .float (if negative then -x else x)

/-- What is written as a number and is infinite or none. -/
def special : Scan Value := do
  let negative ← sign
  let x ← (do word "inf"; return 1 / 0) <|> (do word "nan"; return 0 / 0)
  return .float (if negative then -x else x)

/-- A number of either kind. -/
def number : Scan Value := finite <|> special <|> integer

end PenDrawing.Toml
