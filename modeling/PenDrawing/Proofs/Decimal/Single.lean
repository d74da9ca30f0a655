import PenDrawing.Decimal.Exact
import Mathlib

/-!
# What a quotient of two numbers of four bytes may be off

A number of four bytes has a **`Normal`** mantissa of 24 bits wherever it is not too small for one.
The route to the quotient of two such numbers:

* bits that are shifted out of a mantissa are a division (`mantissa_shiftRight`), and rounding adds
  no more than one (`le_roundedMantissa`, `roundedMantissa_le`);
* so what is rounded is off by no more than one in its last place (**`exists_roundWithAccuracy`**);
  a mantissa that rounding carries to 25 bits is a power of two, and is shifted once more;
* what is packed is unpacked as it was (**`unpack_pack`**);
* whole numbers of 24 bits are kept as they are (**`unpack_ofNat`**), and a quotient lies within one
  last place of the true one (**`exists_unpack_div`**).
-/

namespace PenDrawing.Decimal

open Float.Model (Format UnpackedFloat totalExponent)
open Float.Model.UnpackedFloat

/-- A mantissa of 24 bits. -/
structure Normal (m : Nat) : Prop where
  low : 2 ^ 23 ≤ m
  high : m < 2 ^ 24

theorem Normal.pos {m : Nat} (h : Normal m) : 0 < m := Nat.lt_of_lt_of_le (by decide) h.low

theorem Normal.log2 {m : Nat} (h : Normal m) : m.log2 = 23 := by
  rw [Nat.log2_eq_iff (Nat.ne_of_gt h.pos)]
  exact ⟨h.low, h.high⟩

/-! ## Shifting and rounding a mantissa -/

/-- Bits that are shifted out of a mantissa are a division. -/
theorem mantissa_shiftRight (em : ExtendedMantissa) (k : Nat) :
    (em >>> k).mantissa = em.mantissa / 2 ^ k := by
  show (k.repeat ExtendedMantissa.shiftRightOne em).mantissa = _
  induction k with
  | zero => exact (Nat.div_one _).symm
  | succ k ih =>
      show (k.repeat ExtendedMantissa.shiftRightOne em).mantissa / 2 = _
      rw [ih, Nat.div_div_eq_div_mul, Nat.pow_succ]

theorem le_roundedMantissa (em : ExtendedMantissa) : em.mantissa ≤ em.roundedMantissa := by
  obtain ⟨m, round, sticky⟩ := em
  cases round <;> cases sticky <;>
    simp [ExtendedMantissa.roundedMantissa, ExtendedMantissa.accuracy, Accuracy.roundToNearestEven]

/-- Rounding adds one to a mantissa at most. -/
theorem roundedMantissa_le (em : ExtendedMantissa) : em.roundedMantissa ≤ em.mantissa + 1 := by
  obtain ⟨m, round, sticky⟩ := em
  cases round <;> cases sticky <;>
    simp [ExtendedMantissa.roundedMantissa, ExtendedMantissa.accuracy, Accuracy.roundToNearestEven]
  omega

theorem mantissa_ofMantissaAndAccuracy (m : Nat) (accuracy : Accuracy) :
    (ExtendedMantissa.ofMantissaAndAccuracy m accuracy).mantissa = m := by
  match accuracy with
  | .exact => rfl
  | .inexact .lt => rfl
  | .inexact .eq => rfl
  | .inexact .gt => rfl

/-- As many bits are shifted out as there are above 24. -/
theorem shiftToTargetExponent_eq {m k : Nat} {e : Int} (accuracy : Accuracy)
    (bits : m.log2 = 23 + k) (least : -149 ≤ e) :
    shiftToTargetExponent .binary32 m e accuracy =
      (ExtendedMantissa.ofMantissaAndAccuracy m accuracy >>> k, e + k) := by
  have target : Format.targetExponent .binary32 (totalExponent m e) = e + k := by
    simp only [Format.targetExponent, totalExponent, bits, Format.mantissaBits,
      Format.minExponent]
    omega
  rw [shiftToTargetExponent, shiftToExponent, target, show (e + k - e).toNat = k by omega]

/-- A number of `23 + k` and one bits has 24 of them left when `k` are shifted out. -/
theorem normal_div {m k : Nat} (bits : m.log2 = 23 + k) : Normal (m / 2 ^ k) := by
  have nonzero : m ≠ 0 := fun none => by
    rw [none, Nat.log2_zero] at bits
    omega
  have within := (Nat.log2_eq_iff nonzero).mp bits
  refine ⟨?_, ?_⟩
  · rw [Nat.le_div_iff_mul_le (Nat.two_pow_pos k), ← Nat.pow_add]
    exact within.1
  · rw [Nat.div_lt_iff_lt_mul (Nat.two_pow_pos k), ← Nat.pow_add, Nat.add_right_comm 23 1 k]
    exact within.2

/-- What is rounded was shifted twice: to 24 bits, and once more when rounding carried. -/
theorem roundWithAccuracy_eq (sign : Sign) {m k r c : Nat} {e : Int} {accuracy : Accuracy}
    (bits : m.log2 = 23 + k) (least : -149 ≤ e)
    (rounded : (ExtendedMantissa.ofMantissaAndAccuracy m accuracy >>> k).roundedMantissa = r)
    (carried : r.log2 = 23 + c) :
    roundWithAccuracy .binary32 sign m e accuracy =
      .finite sign (r / 2 ^ c) (e + k + c) (normal_div carried).pos := by
  have first := shiftToTargetExponent_eq accuracy bits least
  have second := shiftToTargetExponent_eq .exact carried (show -149 ≤ e + k by omega)
  have mantissa : (ExtendedMantissa.ofMantissaAndAccuracy r .exact >>> c).mantissa = r / 2 ^ c := by
    rw [mantissa_shiftRight, mantissa_ofMantissaAndAccuracy]
  simp only [roundWithAccuracy, first, rounded, second, mantissa,
    dif_neg (Nat.ne_of_gt (normal_div carried).pos)]

/-- A mantissa of 24 bits is kept as it is. -/
theorem roundWithAccuracy_exact (sign : Sign) {m : Nat} (h : Normal m) {e : Int}
    (least : -149 ≤ e) :
    roundWithAccuracy .binary32 sign m e .exact = .finite sign m e h.pos := by
  have same : (ExtendedMantissa.ofMantissaAndAccuracy m .exact >>> 0).roundedMantissa = m := rfl
  simp [roundWithAccuracy_eq (k := 0) (c := 0) sign h.log2 least same h.log2]

/-- **What is rounded is off by no more than one in its last place**, `k` bits above the one of the
mantissa. -/
theorem exists_roundWithAccuracy (sign : Sign) {m : Nat} (enough : 2 ^ 23 ≤ m) {e : Int}
    (least : -149 ≤ e) (accuracy : Accuracy) :
    ∃ r k : Nat, ∃ h : Normal r,
      roundWithAccuracy .binary32 sign m e accuracy = .finite sign r (e + k) h.pos ∧
      r * 2 ^ k ≤ m + 2 ^ k ∧ m < r * 2 ^ k + 2 ^ k := by
  have nonzero : m ≠ 0 := Nat.ne_of_gt (Nat.lt_of_lt_of_le (by decide) enough)
  obtain ⟨k, bits⟩ := Nat.exists_eq_add_of_le ((Nat.le_log2 nonzero).mpr enough)
  have left := normal_div bits
  have whole := Nat.div_add_mod m (2 ^ k)
  have part := Nat.mod_lt m (Nat.two_pow_pos k)
  -- the mantissa of 24 bits, and what it is rounded to
  generalize shifted : ExtendedMantissa.ofMantissaAndAccuracy m accuracy >>> k = em
  have mantissa : em.mantissa = m / 2 ^ k := by
    rw [← shifted, mantissa_shiftRight, mantissa_ofMantissaAndAccuracy]
  have low : m / 2 ^ k ≤ em.roundedMantissa := mantissa ▸ le_roundedMantissa em
  have high : em.roundedMantissa ≤ m / 2 ^ k + 1 := mantissa ▸ roundedMantissa_le em
  have lowest : em.roundedMantissa * 2 ^ k ≤ m + 2 ^ k := by
    have scaled := Nat.mul_le_mul_right (2 ^ k) high
    rw [Nat.add_mul, Nat.one_mul, Nat.mul_comm (m / 2 ^ k)] at scaled
    omega
  have highest : m < em.roundedMantissa * 2 ^ k + 2 ^ k := by
    have scaled := Nat.mul_le_mul_right (2 ^ k) low
    rw [Nat.mul_comm (m / 2 ^ k)] at scaled
    omega
  by_cases fits : em.roundedMantissa < 2 ^ 24
  · have h : Normal em.roundedMantissa := ⟨Nat.le_trans left.low low, fits⟩
    refine ⟨_, k, h, ?_, lowest, highest⟩
    simp [roundWithAccuracy_eq (c := 0) sign bits least (congrArg _ shifted) h.log2]
  · have carried : em.roundedMantissa = 2 ^ 24 := by
      have := left.high
      omega
    rw [carried] at lowest highest
    have h : Normal (2 ^ 23) := ⟨Nat.le_refl _, by decide⟩
    refine ⟨2 ^ 23, k + 1, h, ?_, ?_, ?_⟩
    · have rounded := (congrArg ExtendedMantissa.roundedMantissa shifted).trans carried
      rw [roundWithAccuracy_eq (c := 1) sign bits least rounded (Nat.log2_two_pow)]
      simp [Int.add_assoc]
    · rw [Nat.pow_succ]
      omega
    · rw [Nat.pow_succ]
      omega

/-! ## Packing -/

/-- A mantissa is kept without its highest bit. -/
theorem toNat_implicit {m : Nat} (h : Normal m) :
    ((1#1 : BitVec 1) ++ BitVec.ofNat 23 m).toNat = m := by
  have low := h.low
  have high := h.high
  rw [BitVec.toNat_append, ← Nat.shiftLeft_add_eq_or_of_lt (BitVec.isLt _), BitVec.toNat_ofNat,
    BitVec.toNat_ofNat, Nat.shiftLeft_eq]
  omega

/-- **What is packed is unpacked as it was.** -/
theorem unpack_pack (sign : Sign) {m : Nat} (h : Normal m) {e : Int} (least : -149 ≤ e)
    (greatest : e ≤ 104) :
    (Float32.Model.pack (.finite sign m e h.pos)).unpack = .finite sign m e h.pos := by
  obtain ⟨b, biased⟩ := Int.eq_ofNat_of_zero_le (show 0 ≤ e + 150 by omega)
  have exponent : (BitVec.ofNat 8 b).toNat = b := by
    rw [BitVec.toNat_ofNat, Nat.mod_eq_of_lt (by omega)]
  have finite : BitVec.ofNat 8 b ≠ -1#8 := fun same => by
    have same := exponent.symm.trans (congrArg BitVec.toNat same)
    rw [show (-1#8).toNat = 255 from rfl] at same
    omega
  have usual : BitVec.ofNat 8 b ≠ 0#8 := fun same => by
    have same := exponent.symm.trans (congrArg BitVec.toNat same)
    rw [show (0#8).toNat = 0 from rfl] at same
    omega
  have packed : UnpackedFloat.pack .binary32 (.finite sign m e h.pos) =
      packComponents .binary32 sign (BitVec.ofNat 8 b) (BitVec.ofNat 23 m) := by
    have shifted : (e + (Format.exponentBias .binary32 : Nat) + (23 : Nat)).toNat = b := by
      rw [show Format.exponentBias .binary32 = 127 from rfl]
      omega
    have fits : ¬ 2 ^ 8 ≤ b + 1 := by omega
    simp only [UnpackedFloat.pack, shifted, if_neg fits, h.log2]
    rfl
  show UnpackedFloat.unpack .binary32 (UnpackedFloat.pack .binary32 (.finite sign m e h.pos)) = _
  rw [packed, UnpackedFloat.unpack]
  simp only [unpackMantissa_packComponents, unpackExponent_packComponents,
    unpackSign_packComponents, Sign.ofBitVec_toBitVec, if_neg finite, if_neg usual]
  have lifted : (((BitVec.ofNat 8 b).toNat : Nat) : Int) -
      ((Format.exponentBias .binary32 : Nat) + (23 : Nat)) = e := by
    rw [exponent, show Format.exponentBias .binary32 = 127 from rfl]
    omega
  exact UnpackedFloat.finite.injEq .. ▸ ⟨rfl, toNat_implicit h, lifted⟩

/-! ## Whole numbers and quotients -/

/-- The places that a whole number is short of 24 bits. -/
def room (n : Nat) : Nat := 23 - n.log2

/-- A number of at most 24 bits becomes normal by filling it up. -/
theorem normal_shiftLeft {n : Nat} (pos : 0 < n) (small : n < 2 ^ 24) :
    Normal (n * 2 ^ room n) := by
  have bits := (Nat.log2_lt (Nat.ne_of_gt pos)).mpr small
  have within := (Nat.log2_eq_iff (Nat.ne_of_gt pos)).mp rfl
  have parts : n.log2 + room n = 23 := by
    rw [room]
    omega
  refine ⟨?_, ?_⟩
  · rw [← parts, Nat.pow_add]
    exact Nat.mul_le_mul_right _ within.1
  · rw [show 24 = n.log2 + 1 + room n by omega, Nat.pow_add]
    exact Nat.mul_lt_mul_of_pos_right within.2 (Nat.two_pow_pos _)

/-- **A whole number of 24 bits is kept as it is.** -/
theorem unpack_ofNat {n : Nat} (pos : 0 < n) (small : n < 2 ^ 24) :
    (Float32.Model.ofNat n).unpack =
      .finite .positive (n * 2 ^ room n) (-(room n : Int)) (normal_shiftLeft pos small).pos := by
  have bits := (Nat.log2_lt (Nat.ne_of_gt pos)).mpr small
  have target : Format.targetExponent .binary32 (totalExponent n 0) = -(room n : Int) := by
    simp only [Format.targetExponent, totalExponent, Format.mantissaBits, Format.minExponent, room]
    omega
  have raised : decreaseExponent n 0 (-(room n : Int)) = (n * 2 ^ room n, -(room n : Int)) := by
    have shift : ((0 : Int) - -(room n : Int)).toNat = room n := by omega
    rw [decreaseExponent, shift, Nat.shiftLeft_eq, Int.zero_sub]
  have least : -149 ≤ -(room n : Int) := by
    rw [room]
    omega
  have sign : compare (n : Int) 0 = .gt := Int.compare_eq_gt.mpr (by omega)
  have rounded : UnpackedFloat.ofNat .binary32 n =
      .finite .positive (n * 2 ^ room n) (-(room n : Int)) (normal_shiftLeft pos small).pos := by
    rw [UnpackedFloat.ofNat, UnpackedFloat.ofInt, UnpackedFloat.normalize, sign]
    dsimp only
    rw [UnpackedFloat.round, Int.toNat_natCast, target, raised]
    exact roundWithAccuracy_exact .positive (normal_shiftLeft pos small) least
  show (Float32.Model.pack (UnpackedFloat.ofNat .binary32 n)).unpack = _
  rw [rounded, unpack_pack _ (normal_shiftLeft pos small) least (by omega)]

/-- Two mantissas of 24 bits are divided with 24 bits behind the point. -/
theorem divCore_eq {m n : Nat} {e f : Int} (first : Normal m) (second : Normal n)
    (least : -125 ≤ e - f) :
    divCore .binary32 m e n f =
      (m * 2 ^ 24 / n, e - f - 24, accuracyOfFraction (m * 2 ^ 24 % n) n) := by
  have target : Format.targetExponent .binary32 (totalExponent m e - totalExponent n f) =
      e - f - 24 := by
    simp only [Format.targetExponent, totalExponent, Format.mantissaBits, Format.minExponent,
      first.log2, second.log2]
    omega
  have lower : min (e - f) (e - f - 24) = e - f - 24 := by omega
  have shift : (e - f - (e - f - 24)).toNat = 24 := by omega
  rw [divCore, target, lower, shift, Nat.shiftLeft_eq]

/-- **A quotient lies within one last place of the true one**, which is `k` bits above the lowest
bit that is computed. -/
theorem exists_unpack_div {x y : Float32.Model} {s t : Sign} {m n : Nat} {e f : Int}
    (first : Normal m) (second : Normal n) (left : x.unpack = .finite s m e first.pos)
    (right : y.unpack = .finite t n f second.pos) (least : -125 ≤ e - f) (greatest : e - f ≤ 100) :
    ∃ r k : Nat, ∃ h : Normal r,
      (x / y).unpack = .finite (s / t) r (e - f - 24 + k) h.pos ∧ k ≤ 2 ∧
      r * 2 ^ k * n ≤ m * 2 ^ 24 + 2 ^ k * n ∧ m * 2 ^ 24 ≤ r * 2 ^ k * n + 2 ^ k * n := by
  have core := divCore_eq first second least
  have whole := Nat.div_add_mod (m * 2 ^ 24) n
  have part := Nat.mod_lt (m * 2 ^ 24) second.pos
  have enough : 2 ^ 23 ≤ m * 2 ^ 24 / n := by
    rw [Nat.le_div_iff_mul_le second.pos]
    have := first.low
    have := second.high
    omega
  have bounded : m * 2 ^ 24 / n < 2 ^ 25 := by
    rw [Nat.div_lt_iff_lt_mul second.pos]
    have := first.high
    have := second.low
    omega
  obtain ⟨r, k, h, rounded, low, high⟩ := exists_roundWithAccuracy (s / t) enough
    (show -149 ≤ e - f - 24 by omega) (accuracyOfFraction (m * 2 ^ 24 % n) n)
  have few : k ≤ 2 := by
    by_contra many
    have step : 2 ^ 3 ≤ 2 ^ k := Nat.pow_le_pow_right (by decide) (by omega)
    have scaled := Nat.mul_le_mul_right (2 ^ k) h.low
    omega
  refine ⟨r, k, h, ?_, few, ?_, ?_⟩
  · have quotient : UnpackedFloat.div .binary32 x.unpack y.unpack =
        .finite (s / t) r (e - f - 24 + k) h.pos := by
      rw [left, right, UnpackedFloat.div, core]
      exact rounded
    show (Float32.Model.pack (UnpackedFloat.div .binary32 x.unpack y.unpack)).unpack = _
    rw [quotient, unpack_pack _ h (by omega) (by omega)]
  · calc r * 2 ^ k * n ≤ (m * 2 ^ 24 / n + 2 ^ k) * n := Nat.mul_le_mul_right n low
      _ = m * 2 ^ 24 / n * n + 2 ^ k * n := Nat.add_mul ..
      _ ≤ m * 2 ^ 24 + 2 ^ k * n := Nat.add_le_add_right (Nat.div_mul_le_self _ n) _
  · calc m * 2 ^ 24 ≤ (m * 2 ^ 24 / n + 1) * n := by
          rw [Nat.add_mul, Nat.one_mul, Nat.mul_comm _ n]
          omega
      _ ≤ (r * 2 ^ k + 2 ^ k) * n := Nat.mul_le_mul_right n high
      _ = r * 2 ^ k * n + 2 ^ k * n := Nat.add_mul ..

end PenDrawing.Decimal
