import PenDrawing.Decimal.Fixed

/-!
# The shortest decimal text of a number

Many decimals are rounded to the same binary number. Of those that are, the text of the number is
the one with the fewest digits, and of those the nearest one; of two equally near ones the larger.
It is written out in full: there is never an exponent, and no point without digits behind it.

* **`Span`** is the interval of what is rounded to a number, in quarters of its last place.
* **`onGrid?`** is the nearest multiple of a power of ten in it, **`digits`** the first one that
  there is when the powers fall.
* **`shortest`** is the text.
-/

namespace PenDrawing.Decimal

/-- What is rounded to a number: its value, the interval's ends, all of them in units of
`2 ^ unit`, and whether the ends belong to the interval. -/
structure Span where
  low : Nat
  value : Nat
  high : Nat
  unit : Int
  closed : Bool
deriving DecidableEq, Repr

/-- The interval of what is rounded to `mantissa * 2 ^ exponent`. Half a last place belongs to the
number on each side, and a quarter below a power of two, where the places below are half as wide.
The ends go to the even mantissa. -/
def Span.of (layout : Layout) (mantissa : Nat) (exponent : Int) : Span :=
  let narrowBelow := mantissa = Nat.pow 2 (layout.bits - 1) ∧ layout.least < exponent
  { low := 4 * mantissa - if narrowBelow then 1 else 2
    value := 4 * mantissa
    high := 4 * mantissa + 2
    unit := exponent - 2
    closed := mantissa % 2 = 0 }

/-- Numerator and denominator of a power. -/
def powerRatio (base : Nat) (exponent : Int) : Nat × Nat :=
  match exponent with
  | .ofNat e => (base.pow e, 1)
  | .negSucc e => (1, base.pow (e + 1))

/-- The multiple of `10 ^ power` in an interval that is nearest to its value, if there is one. -/
def onGrid? (span : Span) (power : Int) : Option Nat :=
  let (unitNum, unitDen) := powerRatio 2 span.unit
  let (gridNum, gridDen) := powerRatio 10 power
  -- `n * 10 ^ power` compares with `k * 2 ^ unit` as `n * q` with `k * p`
  let p := unitNum * gridDen
  let q := unitDen * gridNum
  let inside (n : Nat) : Bool :=
    if span.closed then span.low * p ≤ n * q && n * q ≤ span.high * p
    else span.low * p < n * q && n * q < span.high * p
  let below := span.value * p / q
  let lowerIsNearer := 2 * (span.value * p - below * q) < q
  if inside below && (lowerIsNearer || !inside (below + 1)) then some below
  else if inside (below + 1) then some (below + 1)
  else none

/-- The first grid with a multiple in the interval, from `power` down through `count` powers. -/
def firstGrid (span : Span) : (count : Nat) → (power : Int) → Nat × Int
  | 0, power => (span.value, power)
  | count + 1, power =>
    match onGrid? span power with
    | some n => (n, power)
    | none => firstGrid span count (power - 1)

/-- A power of ten above `mantissa * 2 ^ exponent`: there are three bits and more to a digit. -/
def powerAbove (mantissa : Nat) (exponent : Int) : Int :=
  (mantissa.log2 + 1 + exponent) * 30103 / 100000 + 2

/-- How many grids there are to try: no number of eight bytes has more than 17 digits. -/
def gridCount : Nat := 24

/-- The digits of a number other than zero, and the power of ten that they count. -/
def digits (layout : Layout) (mantissa : Nat) (exponent : Int) : Nat × Int :=
  firstGrid (.of layout mantissa exponent) gridCount (powerAbove mantissa exponent)

/-- The text of `n * 10 ^ power`, written out in full. -/
def positional (n : Nat) (power : Int) : String :=
  match power with
  | .ofNat e => toString (n * Nat.pow 10 e)
  | .negSucc e => placed (e + 1) n

/-- The text of a number in as few digits as read back to it. -/
def shortest (layout : Layout) : Exact → String
  | .notANumber => "NaN"
  | .infinite negative => signText negative ++ "inf"
  | .finite negative mantissa exponent =>
    if mantissa = 0 then signText negative ++ "0"
    else
      let (n, power) := digits layout mantissa exponent
      signText negative ++ positional n power

end PenDrawing.Decimal
