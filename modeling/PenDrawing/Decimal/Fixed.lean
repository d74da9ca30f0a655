import PenDrawing.Decimal.Exact

/-!
# Decimal texts with a fixed number of places

The text of a number with `places` digits after the point is the exact value, rounded to the
nearest such decimal; of two equally near ones the one with an even last digit is taken. The sign
stays, also where nothing else is left of the number.

* **`roundDiv`** is the rounding; **`roundDiv_mul_le`** and **`le_roundDiv_mul`** say that it is off
  by no more than one half.
* **`fixed`** is the text.
-/

namespace PenDrawing.Decimal

/-- The whole number nearest to a quotient; of two equally near ones the even one. -/
def roundDiv (num den : Nat) : Nat :=
  let q := num / den
  let r := num % den
  if 2 * r < den then q
  else if den < 2 * r then q + 1
  else if q % 2 = 0 then q else q + 1

/-- What a quotient is rounded to is at most one half above it. -/
theorem roundDiv_mul_le {num den : Nat} (h : 0 < den) :
    2 * (roundDiv num den * den) ≤ 2 * num + den := by
  have whole := Nat.div_add_mod num den
  have part := Nat.mod_lt num h
  have next : (num / den + 1) * den = den * (num / den) + den := by
    rw [Nat.add_mul, Nat.one_mul, Nat.mul_comm]
  simp only [roundDiv]
  split
  · rw [Nat.mul_comm (num / den) den]; omega
  · split
    · omega
    · split
      · rw [Nat.mul_comm (num / den) den]; omega
      · omega

/-- What a quotient is rounded to is at most one half below it. -/
theorem le_roundDiv_mul {num den : Nat} (h : 0 < den) :
    2 * num ≤ 2 * (roundDiv num den * den) + den := by
  have whole := Nat.div_add_mod num den
  have part := Nat.mod_lt num h
  have next : (num / den + 1) * den = den * (num / den) + den := by
    rw [Nat.add_mul, Nat.one_mul, Nat.mul_comm]
  simp only [roundDiv]
  split
  · rw [Nat.mul_comm (num / den) den]; omega
  · split
    · omega
    · split
      · rw [Nat.mul_comm (num / den) den]; omega
      · omega

/-- The value in units of `10 ^ -places`, rounded to a whole number. -/
def scaled (places mantissa : Nat) (exponent : Int) : Nat :=
  match exponent with
  | .ofNat e => mantissa * Nat.pow 2 e * Nat.pow 10 places
  | .negSucc e => roundDiv (mantissa * Nat.pow 10 places) (Nat.pow 2 (e + 1))

/-- Digits with zeros before them, up to a width. -/
def padLeft (width : Nat) (digits : String) : String :=
  String.ofList (List.replicate (width - digits.length) '0') ++ digits

/-- The text of a number of units of `10 ^ -places`. -/
def placed (places units : Nat) : String :=
  if places = 0 then toString units
  else
    let unit := Nat.pow 10 places
    s!"{units / unit}.{padLeft places (toString (units % unit))}"

/-- The sign before a number. -/
def signText (negative : Bool) : String := if negative then "-" else ""

/-- The text of a number with a fixed number of places. -/
def fixed (places : Nat) : Exact → String
  | .notANumber => "NaN"
  | .infinite negative => signText negative ++ "inf"
  | .finite negative mantissa exponent =>
    signText negative ++ placed places (scaled places mantissa exponent)

end PenDrawing.Decimal
