import Mathlib
import QuantityCalculator.Number.Basic

/-!
Negating numbers twice.

Negating a double turns its sign bit and leaves all other bits; there is one NaN, which stays what it is.  So whatever
a number is, negating it twice gives it back.
-/

namespace QuantityCalculator

namespace Binary64

open Float.Model (Format)
open Float.Model.UnpackedFloat

variable {format : Format}

def negateBits (format : Format) (bits : BitVec format.numBits) : BitVec format.numBits :=
  (unpack format bits).neg.pack format

private theorem neg_unpack (sign : Sign) (exponent : BitVec format.exponentBits)
    (mantissa : BitVec format.mantissaBitsWithoutImplicit) :
    (unpack format (packComponents format sign exponent mantissa)).neg =
      unpack format (packComponents format (-sign) exponent mantissa) := by
  unfold unpack
  simp only [unpackMantissa_packComponents, unpackExponent_packComponents, unpackSign_packComponents,
    Sign.ofBitVec_toBitVec]
  split
  · split <;> rfl
  · split
    · split <;> rfl
    · rfl

private theorem isNaNBits_packComponents (sign : Sign) (exponent : BitVec format.exponentBits)
    (mantissa : BitVec format.mantissaBitsWithoutImplicit) :
    isNaNBits (packComponents format sign exponent mantissa) = decide (exponent = -1#_ ∧ mantissa ≠ 0#_) := by
  rw [isNaNBits, unpackExponent_packComponents, unpackMantissa_packComponents]

private theorem negateBits_packComponents (wide : 2 ≤ format.exponentBits) {sign : Sign}
    {exponent : BitVec format.exponentBits} {mantissa : BitVec format.mantissaBitsWithoutImplicit}
    (isNumber : ¬(exponent = -1#_ ∧ mantissa ≠ 0#_)) :
    negateBits format (packComponents format sign exponent mantissa) =
      packComponents format (-sign) exponent mantissa := by
  rw [negateBits, neg_unpack, pack_unpack _ wide, isNaNBits_packComponents, decide_eq_false isNumber,
    if_neg Bool.false_ne_true]

private theorem negateBits_packedNaN : negateBits format (packedNaN format) = packedNaN format := by
  rw [negateBits, unpack_packedNaN]
  rfl

private theorem negateBits_negateBits (wide : 2 ≤ format.exponentBits) {bits : BitVec format.numBits}
    (valid : format.Valid bits) : negateBits format (negateBits format bits) = bits := by
  by_cases isNaN : unpackExponent bits = -1#_ ∧ unpackMantissa bits ≠ 0#_
  · rw [valid.eq_packedNaN isNaN.1 isNaN.2, negateBits_packedNaN, negateBits_packedNaN]
  · have signs : ∀ sign : Sign, - -sign = sign := by
      intro sign
      cases sign <;> rfl
    rw [← packComponents_unpackSign_unpackExponent_unpackMantissa bits, negateBits_packComponents wide isNaN,
      negateBits_packComponents wide isNaN, signs]

private theorem toBits_neg (x : Float) : (-x).toBits.toBitVec = negateBits .binary64 x.toBits.toBitVec :=
  rfl

theorem neg_neg (x : Float) : - -x = x := by
  apply Float.toBits_inj.mp
  apply UInt64.toBitVec_inj.mp
  rw [toBits_neg, toBits_neg]
  exact negateBits_negateBits (by decide) x.toModel.valid

end Binary64

theorem Number.neg_neg (number : Number) : - -number = number := by
  cases number with
  | exact r => exact congrArg Number.exact (Rat.neg_neg r)
  | real x => exact congrArg Number.real (Binary64.neg_neg x)

end QuantityCalculator
