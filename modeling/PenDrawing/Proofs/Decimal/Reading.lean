import PenDrawing.Decimal.Fixed
import PenDrawing.Proofs.Text.Digit
import Mathlib.Algebra.Order.Field.Rat
import Mathlib.Tactic.FieldSimp
import Mathlib.Tactic.Ring

/-!
# Decimal texts are read exactly

A decimal text stands for a rational number, and **`read?`** is that number.  The text of a number of
units of `10 ^ -places` is read as exactly that (**`read?_placed`**): the digits behind its point
are as many as the places (`length_padLeft`), and the zeros they are filled up with do not count.

A binary number that is near enough to a decimal is written as that decimal (`scaled_eq`).
-/

namespace PenDrawing.Decimal

/-- The number that a decimal text stands for: digits, and a point with more of them behind it where
there are places. -/
def read? (text : List Char) : Option ℚ :=
  match text.splitOn '.' with
  | [whole] => do
    let w ← Text.value? whole
    some w
  | [whole, part] => do
    let w ← Text.value? whole
    let p ← Text.value? part
    some (w + p / 10 ^ part.length)
  | _ => none

theorem toList_toString (n : Nat) : (toString n).toList = Nat.toDigits 10 n := Nat.toList_repr

theorem not_mem_toDigits {c : Char} (other : Text.isAsciiDigit c = false) (n : Nat) :
    c ∉ Nat.toDigits 10 n := fun mem => by
  rw [Text.isAsciiDigit_of_mem_toDigits mem] at other
  cases other

/-! ## Digits that are filled up with zeros -/

theorem toList_padLeft (width n : Nat) :
    (padLeft width (toString n)).toList =
      List.replicate (width - (Nat.toDigits 10 n).length) '0' ++ Nat.toDigits 10 n := by
  rw [padLeft, String.toList_append, String.toList_ofList, toList_toString, ← String.length_toList,
    toList_toString]

/-- Digits are filled up to the width that they fit in. -/
theorem length_padLeft {width n : Nat} (pos : 0 < width) (small : n < 10 ^ width) :
    (padLeft width (toString n)).toList.length = width := by
  have fits := (Nat.length_toDigits_le_iff (by decide) pos).mpr small
  rw [toList_padLeft, List.length_append, List.length_replicate]
  omega

/-- Zeros in front do not change what a number is read as. -/
theorem value?_padLeft (width n : Nat) :
    Text.value? (padLeft width (toString n)).toList = some n := by
  rw [toList_padLeft, Text.value?_zeros_append, Text.value?_toDigits]

theorem not_mem_padLeft {c : Char} (other : Text.isAsciiDigit c = false) (width n : Nat) :
    c ∉ (padLeft width (toString n)).toList := by
  rw [toList_padLeft, List.mem_append]
  rintro (zero | digit)
  · rw [List.eq_of_mem_replicate zero] at other
    cases other
  · exact not_mem_toDigits other n digit

/-! ## Numbers of units -/

/-- Where there are places, a number is written with a point between two runs of digits. -/
theorem toList_placed {places : Nat} (pos : 0 < places) (units : Nat) :
    (placed places units).toList =
      Nat.toDigits 10 (units / 10 ^ places) ++
        '.' :: (padLeft places (toString (units % 10 ^ places))).toList := by
  rw [placed, if_neg (Nat.ne_of_gt pos)]
  dsimp only
  rw [String.toList_append, String.toList_append, ← toList_toString, List.append_assoc]
  rfl

/-- Nothing but digits and points stands in the text of a number. -/
theorem not_mem_placed {c : Char} (other : Text.isAsciiDigit c = false) (point : c ≠ '.')
    (places units : Nat) : c ∉ (placed places units).toList := by
  rcases Nat.eq_zero_or_pos places with none | pos
  · rw [placed, if_pos none, toList_toString]
    exact not_mem_toDigits other units
  · rw [toList_placed pos, List.mem_append, List.mem_cons]
    rintro (digit | here | digit)
    · exact not_mem_toDigits other _ digit
    · exact point here
    · exact not_mem_padLeft other _ _ digit

/-- **The text of a number of units is read as exactly that number.** -/
theorem read?_placed (places units : Nat) :
    read? (placed places units).toList = some ((units : ℚ) / 10 ^ places) := by
  have noDigit : Text.isAsciiDigit '.' = false := rfl
  rcases Nat.eq_zero_or_pos places with none | pos
  · rw [placed, if_pos none, none, toList_toString, read?,
      List.splitOn_eq_singleton (not_mem_toDigits noDigit units)]
    simp [Text.value?_toDigits]
  · have whole : (units : ℚ) = 10 ^ places * (units / 10 ^ places : Nat) +
        (units % 10 ^ places : Nat) := by
      exact_mod_cast (Nat.div_add_mod units (10 ^ places)).symm
    rw [toList_placed pos, read?,
      List.splitOn_append_cons_self_of_not_mem (not_mem_toDigits noDigit _),
      List.splitOn_eq_singleton (not_mem_padLeft noDigit _ _)]
    simp only [Text.value?_toDigits, value?_padLeft, Option.bind_eq_bind, Option.bind_some,
      length_padLeft pos (Nat.mod_lt units (Nat.pow_pos (by decide)))]
    rw [whole]
    field_simp

/-- A number that is filled up with a zero. -/
example : read? "12.05".toList = some (241 / 20) := by
  decide +kernel

/-! ## What is near a decimal is written as that decimal -/

/-- A quotient is rounded to the whole number that it is less than one half off. -/
theorem roundDiv_eq {num den n : Nat} (below : 2 * (n * den) < 2 * num + den)
    (above : 2 * num < 2 * (n * den) + den) : roundDiv num den = n := by
  have pos : 0 < den := by omega
  have low : 2 * (roundDiv num den * den) ≤ 2 * num + den := roundDiv_mul_le pos
  have high : 2 * num ≤ 2 * (roundDiv num den * den) + den := le_roundDiv_mul pos
  have notAbove : roundDiv num den < n + 1 := by
    refine Nat.lt_of_mul_lt_mul_right (a := den) ?_
    rw [Nat.add_mul]
    omega
  have notBelow : n < roundDiv num den + 1 := by
    refine Nat.lt_of_mul_lt_mul_right (a := den) ?_
    rw [Nat.add_mul]
    omega
  omega

/-- A binary number is written as the decimal that it is less than half a last place off. -/
theorem scaled_eq {places m k n : Nat} (pos : 0 < k)
    (below : 2 * (n * 2 ^ k) < 2 * (m * 10 ^ places) + 2 ^ k)
    (above : 2 * (m * 10 ^ places) < 2 * (n * 2 ^ k) + 2 ^ k) :
    scaled places m (-(k : Int)) = n := by
  obtain ⟨j, rfl⟩ := Nat.exists_eq_succ_of_ne_zero (Nat.ne_of_gt pos)
  exact roundDiv_eq below above

end PenDrawing.Decimal
