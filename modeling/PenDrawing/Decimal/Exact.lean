/-!
# The exact value of a binary number

A finite binary number is a whole number times a power of two. **`Exact`** is that view of it, from
which decimal texts are made in whole numbers alone.

* **`Exact.ofSingle`** and **`Exact.ofDouble`** take numbers of four and of eight bytes apart.
* **`narrow`** rounds a number of eight bytes to one of four, to even where two are equally near.
-/

namespace PenDrawing.Decimal

/-- A number as it is, not rounded: `mantissa * 2 ^ exponent`, with a sign that zero has too. -/
inductive Exact where
  | notANumber
  | infinite (negative : Bool)
  | finite (negative : Bool) (mantissa : Nat) (exponent : Int)
deriving DecidableEq, Repr

/-- The layout of a binary number: the bits of a mantissa and the least exponent. -/
structure Layout where
  bits : Nat
  least : Int
deriving DecidableEq, Repr

/-- Numbers of four bytes. -/
def single : Layout := ⟨24, -149⟩

/-- Numbers of eight bytes. -/
def double : Layout := ⟨53, -1074⟩

/-- The sign is minus. -/
def isNegative : Float.Model.UnpackedFloat.Sign → Bool
  | .negative => true
  | .positive => false

/-- The exact value of an unpacked number. -/
def Exact.ofUnpacked : Float.Model.UnpackedFloat → Exact
  | .notANumber => .notANumber
  | .infinity sign => .infinite (isNegative sign)
  | .zero sign => .finite (isNegative sign) 0 0
  | .finite sign mantissa exponent _ => .finite (isNegative sign) mantissa exponent

/-- The exact value of a number of four bytes. -/
def Exact.ofSingle (x : Float32) : Exact := .ofUnpacked x.toModel.unpack

/-- The exact value of a number of eight bytes. -/
def Exact.ofDouble (x : Float) : Exact := .ofUnpacked x.toModel.unpack

/-- The nearest number of four bytes, and of two equally near ones the even one. -/
def narrow (x : Float) : Float32 :=
  match x.toModel.unpack with
  | .finite sign mantissa exponent _ =>
    .ofModel (.pack (.round .binary32 sign mantissa exponent))
  | special => .ofModel (.pack special)

end PenDrawing.Decimal
