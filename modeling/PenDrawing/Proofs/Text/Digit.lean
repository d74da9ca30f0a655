import PenDrawing.Text.Blank
import PenDrawing.Text.Digit
import Mathlib.Algebra.Group.Nat.Defs
import Mathlib.Data.List.Basic
import Mathlib.Data.List.Induction
import Mathlib.Data.List.Pairwise
import Mathlib.Tactic.Common

/-!
# Digits

No digit is blank (`isBlank_of_isDigit`), and the decimal digits of a number are read as that number
(`value?_toDigits`).

Digits of any script stand for a number (**`decimal`**): each one counts as far as it stands behind
the zero of its script (`placeValue_add`).  The digits that are read are those of one script only,
and they are read as that number (`value?_eq`).
-/

namespace PenDrawing.Text

/-- The tens of digits lie between the blanks. -/
theorem gap_of_mem_zeros : ∀ z ∈ zeros, (33 ≤ z ∧ z < 120) ∨ (161 ≤ z ∧ z < 5700) ∨
    (5761 ≤ z ∧ z < 8000) ∨ 12289 ≤ z := by
  decide

/-- No digit is a blank. -/
theorem isBlank_of_isDigit {c : Char} (h : isDigit c = true) : isBlank c = false := by
  obtain ⟨z, hz, near⟩ := List.any_eq_true.mp h
  have gap := gap_of_mem_zeros z hz
  simp only [Bool.and_eq_true, decide_eq_true_eq] at near
  simp only [isBlank, Bool.or_eq_false_iff, Bool.and_eq_false_iff, decide_eq_false_iff_not,
    beq_eq_false_iff_ne]
  omega

theorem isDigit_of_isBlank {c : Char} (h : isBlank c = true) : isDigit c = false := by
  by_contra digit
  rw [isBlank_of_isDigit (Bool.of_not_eq_false digit)] at h
  exact Bool.false_ne_true h

/-! ## Decimal numbers -/

theorem isAsciiDigit_of_mem_toDigits {c : Char} {n : Nat} (h : c ∈ Nat.toDigits 10 n) :
    isAsciiDigit c = true := by
  have digit := Nat.isDigit_of_mem_toDigits (by decide) (by decide) h
  rw [isAsciiDigit, Bool.and_eq_true, decide_eq_true_eq, decide_eq_true_eq]
  rw [Char.isDigit, Bool.and_eq_true, decide_eq_true_eq, decide_eq_true_eq] at digit
  exact digit

/-- Decimal digits are read as the number they were made of. -/
theorem value?_toDigits (n : Nat) : value? (Nat.toDigits 10 n) = some n := by
  have ascii : (Nat.toDigits 10 n).all isAsciiDigit = true :=
    List.all_eq_true.mpr fun c hc => isAsciiDigit_of_mem_toDigits hc
  rw [value?, if_pos ascii]
  exact congrArg some Nat.ofDigitChars_ten_toDigits

/-- Zeros before digits do not count. -/
theorem value?_zeros_append (k : Nat) (digits : List Char) :
    value? (List.replicate k '0' ++ digits) = value? digits := by
  induction k with
  | zero => rfl
  | succ k ih =>
      rw [← ih, value?, value?, List.replicate_succ, List.cons_append, List.all_cons,
        show isAsciiDigit '0' = true from rfl, Bool.true_and]
      rfl

/-! ## Digits of all scripts -/

/-- A character stands in the ten that begins with a zero. -/
def InTen (c : Char) (z : Nat) : Prop := z ≤ c.toNat ∧ c.toNat ≤ z + 9

instance (c : Char) (z : Nat) : Decidable (InTen c z) :=
  inferInstanceAs (Decidable (z ≤ c.toNat ∧ c.toNat ≤ z + 9))

/-- The value of a digit is how far it stands behind the zero of its script. -/
def placeValue (c : Char) : Nat :=
  match zeros.find? (InTen c ·) with
  | some z => c.toNat - z
  | none => 0

/-- The number that digits of any scripts stand for, the highest digit first. -/
def decimal (digits : List Char) : Nat := digits.foldl (fun n c => 10 * n + placeValue c) 0

/-- No two tens overlap. -/
theorem pairwise_zeros : zeros.Pairwise fun y z => y + 9 < z ∨ z + 9 < y := by
  have ordered : zeros.IsChain fun y z => y + 9 < z := by decide +kernel
  have transitive : IsTrans Nat fun y z => y + 9 < z := ⟨fun _ _ _ _ _ => by omega⟩
  exact ordered.pairwise.imp Or.inl

/-- A digit belongs to one ten only. -/
theorem eq_of_inTen {c : Char} {y z : Nat} (hy : y ∈ zeros) (hz : z ∈ zeros) (first : InTen c y)
    (second : InTen c z) : y = z := by
  by_contra other
  have symmetric : Std.Symm fun y z : Nat => y + 9 < z ∨ z + 9 < y := ⟨fun _ _ => Or.symm⟩
  have apart := pairwise_zeros.forall hy hz other
  simp only [InTen] at first second
  omega

/-- A digit has the value of its place among the ten of its script. -/
theorem placeValue_add {c : Char} {z k : Nat} (hz : z ∈ zeros) (small : k ≤ 9)
    (h : c.toNat = z + k) : placeValue c = k := by
  have here : InTen c z := by
    constructor <;> omega
  rw [placeValue]
  cases found : zeros.find? (InTen c ·) with
  | none =>
      have nowhere := List.find?_eq_none.mp found z hz
      exact absurd (decide_eq_true here) nowhere
  | some y =>
      have near : decide (InTen c y) = true := List.find?_some (p := (InTen c ·)) found
      have same := eq_of_inTen (List.mem_of_find?_eq_some found) hz (of_decide_eq_true near) here
      show c.toNat - y = k
      omega

theorem placeValue_le (c : Char) : placeValue c ≤ 9 := by
  rw [placeValue]
  cases found : zeros.find? (InTen c ·) with
  | none => exact Nat.zero_le 9
  | some z =>
      have near : decide (InTen c z) = true := List.find?_some (p := (InTen c ·)) found
      have upper := (of_decide_eq_true near).2
      show c.toNat - z ≤ 9
      omega

/-- ASCII digits are the digits of a script. -/
theorem placeValue_of_isAscii {c : Char} (h : isAsciiDigit c = true) :
    placeValue c = digitValue c := by
  rw [isAsciiDigit, Bool.and_eq_true, decide_eq_true_eq, decide_eq_true_eq] at h
  refine placeValue_add (z := 48) List.mem_cons_self ?_ ?_
  · rw [digitValue]
    omega
  · rw [digitValue]
    omega

/-- What is read of a run of digits is the number that they stand for, if all of them are ASCII
digits, and otherwise nothing. -/
theorem value?_eq (digits : List Char) :
    value? digits = if digits.all isAsciiDigit then some (decimal digits) else none := by
  rw [value?]
  by_cases ascii : digits.all isAsciiDigit = true
  · rw [if_pos ascii, if_pos ascii, valueOf, decimal]
    refine congrArg some (List.foldl_ext _ _ 0 ?_)
    intro n c hc
    rw [placeValue_of_isAscii (List.all_eq_true.mp ascii c hc)]
  · rw [if_neg ascii, if_neg ascii]

/-- So many digits stand for a number of so many places. -/
theorem decimal_lt (digits : List Char) : decimal digits < 10 ^ digits.length := by
  induction digits using List.reverseRecOn with
  | nil => exact Nat.zero_lt_one
  | append_singleton digits c ih =>
      have last := placeValue_le c
      rw [decimal, List.foldl_append, List.foldl_cons, List.foldl_nil, ← decimal,
        List.length_append, List.length_singleton, Nat.pow_succ]
      omega

end PenDrawing.Text
