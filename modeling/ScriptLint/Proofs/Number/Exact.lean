import ScriptLint.Number.Binary64
import Mathlib.Data.Rat.Floor
import Mathlib.Algebra.Order.Floor.Semifield

/-!
# Exact values of numbers

A finite binary64 number stands for one rational number. The tests on numbers and their rounding
down go by a ratio of natural numbers, in which one of the two powers of two is one. They are the
comparisons and the floor of the rational number.
-/

namespace ScriptLint.Binary64

variable {number : Binary64}

/-- The rational number that a number stands for. -/
def toRat (number : Binary64) : ℚ :=
  (if number.negative then -1 else 1) * (number.significand * 2 ^ number.exponent)

theorem zpow_eq_powerOfTwo (exponent : Int) :
    (2 : ℚ) ^ exponent = powerOfTwo exponent / powerOfTwo (-exponent) := by
  cases exponent with
  | ofNat magnitude => simp [powerOfTwo]
  | negSucc magnitude =>
      rw [zpow_negSucc, Int.neg_negSucc]
      simp [powerOfTwo]

theorem toRat_eq_ratio (nonnegative : number.negative = false) :
    number.toRat = number.ratio.1 / number.ratio.2 := by
  rw [toRat, nonnegative, if_neg Bool.false_ne_true, one_mul, zpow_eq_powerOfTwo, ratio,
    Nat.cast_mul, mul_div_assoc]

theorem isPositive_iff : number.isPositive = true ↔ 0 < number.toRat := by
  have powerPositive : (0 : ℚ) < 2 ^ number.exponent := zpow_pos two_pos _
  by_cases negative : number.negative = true
  · have magnitude : (0 : ℚ) ≤ number.significand * 2 ^ number.exponent := by positivity
    have notAbove : number.toRat ≤ 0 := by
      rw [toRat, if_pos negative, neg_one_mul]
      exact neg_nonpos.mpr magnitude
    simpa [isPositive, negative] using notAbove
  · have toRatEq : number.toRat = number.significand * 2 ^ number.exponent := by
      rw [toRat, if_neg negative, one_mul]
    rw [toRatEq, mul_pos_iff_of_pos_right powerPositive, Nat.cast_pos]
    simp [isPositive, isZero, negative, Nat.pos_iff_ne_zero]

theorem floorMagnitude_eq (positive : 0 < number.toRat) :
    number.floorMagnitude = ⌊number.toRat⌋₊ := by
  have nonnegative : number.negative = false := by
    have isPositive := isPositive_iff.mpr positive
    rw [Binary64.isPositive, Bool.and_eq_true, Bool.not_eq_true'] at isPositive
    exact isPositive.1
  rw [toRat_eq_ratio nonnegative, Nat.floor_div_eq_div, floorMagnitude]

end ScriptLint.Binary64
