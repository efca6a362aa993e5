import Mathlib.Algebra.Order.Field.Power
import Mathlib.Algebra.Order.Field.Rat
import Mathlib.Data.Rat.Lemmas
import QuantityCalculator.Number.Decimal

/-!
Orders of magnitude.

A natural number with a given count of digits lies between two neighbouring powers of ten.  So a ratio of two of
them lies in one of two neighbouring decades, and one comparison tells in which.
-/

namespace QuantityCalculator

open Text (digitCount)

/-! ### Powers of ten -/

private theorem powerOfTen_sub (left right : Int) : powerOfTen (left - right) = powerOfTen left / powerOfTen right :=
  zpow_sub₀ (by decide : (10 : Rat) ≠ 0) left right

private theorem powerOfTen_pos (exponent : Int) : 0 < powerOfTen exponent :=
  zpow_pos (by decide : (0 : Rat) < 10) exponent

/-! ### Digit counts -/

private theorem Text.digitCount_pos (n : Nat) : 0 < digitCount n :=
  Nat.length_toDigits_pos

theorem Text.digitCount_le_iff {n count : Nat} (positive : 0 < count) : digitCount n ≤ count ↔ n < 10 ^ count :=
  Nat.length_toDigits_le_iff (by decide) positive

private theorem lt_powerOfTen_digitCount (n : Nat) : (n : Rat) < powerOfTen (digitCount n) := by
  have below : n < 10 ^ digitCount n := (Text.digitCount_le_iff (Text.digitCount_pos n)).mp (Nat.le_refl _)
  rw [powerOfTen, zpow_natCast]
  exact_mod_cast below

private theorem powerOfTen_digitCount_le {n : Nat} (nonzero : n ≠ 0) : powerOfTen (digitCount n - 1) ≤ (n : Rat) := by
  obtain ⟨others, isCount⟩ := Nat.exists_eq_add_one.mpr (Text.digitCount_pos n)
  have above : 10 ^ others ≤ n := by
    rcases Nat.eq_zero_or_pos others with isZero | positive
    · rw [isZero]
      exact Nat.pos_of_ne_zero nonzero
    · refine Nat.le_of_not_lt fun shorter => ?_
      have counted := (Text.digitCount_le_iff positive).mpr shorter
      omega
  rw [isCount, Nat.cast_succ, add_sub_cancel_right, powerOfTen, zpow_natCast]
  exact_mod_cast above

/-! ### Ratios -/

private theorem magnitude_eq_abs (r : Rat) : magnitude r = |r| := by
  unfold magnitude
  split
  · rename_i negative
    rw [abs_of_neg negative]
  · rename_i nonnegative
    rw [abs_of_nonneg (not_lt.mp nonnegative)]

/-- The difference of the digit counts is the order of magnitude or one more. -/
theorem abs_bounds {r : Rat} (nonzero : r ≠ 0) :
    powerOfTen ((digitCount r.num.natAbs : Int) - digitCount r.den - 1) ≤ |r| ∧
      |r| < powerOfTen ((digitCount r.num.natAbs : Int) - digitCount r.den + 1) := by
  have numerator : r.num.natAbs ≠ 0 := Int.natAbs_ne_zero.mpr (Rat.num_ne_zero.mpr nonzero)
  have positive : 0 < (r.den : Rat) := Nat.cast_pos.mpr r.den_pos
  have isRatio : |r| = (r.num.natAbs : Rat) / (r.den : Rat) := by
    rw [Rat.abs_def, Rat.divInt_eq_div, Int.cast_natCast, Int.cast_natCast]
  rw [isRatio]
  constructor
  · rw [sub_right_comm, powerOfTen_sub]
    exact div_le_div₀ (Nat.cast_nonneg _) (powerOfTen_digitCount_le numerator) positive
      (lt_powerOfTen_digitCount _).le
  · rw [sub_add, powerOfTen_sub]
    exact div_lt_div₀ (lt_powerOfTen_digitCount _) (powerOfTen_digitCount_le r.den_nz) (powerOfTen_pos _).le
      (powerOfTen_pos _)

/-- A rational other than zero lies in the decade of its order of magnitude. -/
theorem orderOfMagnitude_bounds {r : Rat} (nonzero : r ≠ 0) :
    powerOfTen (orderOfMagnitude r) ≤ |r| ∧ |r| < powerOfTen (orderOfMagnitude r + 1) := by
  obtain ⟨above, below⟩ := abs_bounds nonzero
  unfold orderOfMagnitude
  dsimp only
  rw [magnitude_eq_abs]
  split
  · rename_i smaller
    rw [sub_add_cancel]
    exact ⟨above, smaller⟩
  · rename_i notSmaller
    exact ⟨not_lt.mp notSmaller, below⟩

/-- The power of ten that leads a rational other than zero, whose numerator and denominator are not too long. -/
theorem orderOfMagnitude?_brackets {r : Rat} (nonzero : r ≠ 0)
    (numerator : digitCount r.num.natAbs ≤ 2147483647) (denominator : digitCount r.den ≤ 2147483647) :
    ∃ exponent : Int, orderOfMagnitude? r = some exponent ∧ (10 : Rat) ^ exponent ≤ |r| ∧
      |r| < (10 : Rat) ^ (exponent + 1) := by
  have counted : ∀ {n : Nat}, n ≤ 2147483647 → Binary64.isInt32 n = true := by
    intro n bounded
    rw [Binary64.isInt32, Bool.and_eq_true, decide_eq_true_eq, decide_eq_true_eq]
    omega
  refine ⟨orderOfMagnitude r, ?_, orderOfMagnitude_bounds nonzero⟩
  rw [orderOfMagnitude?, counted numerator, counted denominator]
  rfl

/-- Just above a thousandth the digit counts give the hundredth, which is one too many. -/
theorem orderOfMagnitude?_brackets_thousandth :
    (-1 / 999 : Rat) ≠ 0 ∧ digitCount (-1 / 999 : Rat).num.natAbs = 1 ∧ digitCount (-1 / 999 : Rat).den = 3 ∧
      orderOfMagnitude? (-1 / 999) = some (-3) ∧
      ∃ exponent : Int, orderOfMagnitude? (-1 / 999) = some exponent ∧ (10 : Rat) ^ exponent ≤ |-1 / 999| ∧
        |-1 / 999| < (10 : Rat) ^ (exponent + 1) := by
  have nonzero : (-1 / 999 : Rat) ≠ 0 := by decide +kernel
  have numerator : digitCount (-1 / 999 : Rat).num.natAbs = 1 := by decide +kernel
  have denominator : digitCount (-1 / 999 : Rat).den = 3 := by decide +kernel
  have order : orderOfMagnitude? (-1 / 999) = some (-3) := by decide +kernel
  exact ⟨nonzero, numerator, denominator, order,
    orderOfMagnitude?_brackets nonzero (numerator ▸ by decide) (denominator ▸ by decide)⟩

end QuantityCalculator
