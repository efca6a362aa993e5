import QuantityCalculator.Proofs.Amount

/-!
Products whose divisions are not carried out.

A ratio of two rationals is kept even if what it is divided by is zero.  Dividing by it then turns it
upside down: one over a ratio with a zero below is zero.
-/

namespace QuantityCalculator

/-! ### Ratios -/

/-- The ratio of two rationals: a rational unless it is divided by zero, and undefined if both are zero. -/
inductive Ratio where
  | finite (value : Rat)
  | infinite
  | undefined
  deriving DecidableEq

namespace Ratio

protected def mul : Ratio → Ratio → Ratio
  | .finite left, .finite right => .finite (left * right)
  | .finite value, .infinite => if value = 0 then .undefined else .infinite
  | .infinite, .finite value => if value = 0 then .undefined else .infinite
  | .infinite, .infinite => .infinite
  | .undefined, _ => .undefined
  | _, .undefined => .undefined

protected def inv : Ratio → Ratio
  | .finite value => if value = 0 then .infinite else .finite value⁻¹
  | .infinite => .finite 0
  | .undefined => .undefined

protected def neg : Ratio → Ratio
  | .finite value => .finite (-value)
  | .infinite => .infinite
  | .undefined => .undefined

instance : Mul Ratio := ⟨Ratio.mul⟩
instance : Inv Ratio := ⟨Ratio.inv⟩
instance : Neg Ratio := ⟨Ratio.neg⟩
instance : One Ratio := ⟨.finite 1⟩

@[simp] theorem finite_mul_finite (left right : Rat) :
    finite left * finite right = finite (left * right) :=
  rfl

@[simp] theorem infinite_mul_infinite : infinite * infinite = infinite :=
  rfl

@[simp] theorem finite_mul_infinite (value : Rat) :
    finite value * infinite = if value = 0 then undefined else infinite :=
  rfl

@[simp] theorem infinite_mul_finite (value : Rat) :
    infinite * finite value = if value = 0 then undefined else infinite :=
  rfl

@[simp] theorem undefined_mul (ratio : Ratio) : undefined * ratio = undefined := by
  cases ratio <;> rfl

@[simp] theorem mul_undefined (ratio : Ratio) : ratio * undefined = undefined := by
  cases ratio <;> rfl

@[simp] theorem inv_finite (value : Rat) :
    (finite value)⁻¹ = if value = 0 then infinite else finite value⁻¹ :=
  rfl

@[simp] theorem inv_infinite : infinite⁻¹ = finite 0 :=
  rfl

@[simp] theorem inv_undefined : undefined⁻¹ = undefined :=
  rfl

@[simp] theorem neg_finite (value : Rat) : -finite value = finite (-value) :=
  rfl

@[simp] theorem neg_infinite : -infinite = infinite :=
  rfl

@[simp] theorem neg_undefined : -undefined = undefined :=
  rfl

theorem one_eq : (1 : Ratio) = finite 1 :=
  rfl

protected theorem mul_comm (left right : Ratio) : left * right = right * left := by
  cases left <;> cases right <;> simp [mul_comm]

protected theorem mul_assoc (first second third : Ratio) :
    first * second * third = first * (second * third) := by
  cases first with
  | undefined => simp
  | finite a =>
      cases second with
      | undefined => simp
      | finite b =>
          cases third with
          | undefined => simp
          | finite c => simp [mul_assoc]
          | infinite => by_cases zero : a = 0 <;> by_cases zeroNext : b = 0 <;> simp [zero, zeroNext]
      | infinite => by_cases zero : a = 0 <;> cases third <;> simp [zero]
  | infinite =>
      cases second with
      | undefined => simp
      | finite b => by_cases zero : b = 0 <;> cases third <;> simp [zero]
      | infinite => cases third <;> simp

instance : CommMonoid Ratio where
  mul_comm := Ratio.mul_comm
  mul_assoc := Ratio.mul_assoc
  one_mul ratio := by cases ratio <;> simp [one_eq]
  mul_one ratio := by cases ratio <;> simp [one_eq]

protected theorem inv_inv (ratio : Ratio) : ratio⁻¹⁻¹ = ratio := by
  cases ratio with
  | finite value => by_cases zero : value = 0 <;> simp [zero]
  | infinite => simp
  | undefined => rfl

protected theorem mul_inv (left right : Ratio) : (left * right)⁻¹ = left⁻¹ * right⁻¹ := by
  cases left with
  | undefined => simp
  | finite a =>
      by_cases zero : a = 0
      · cases right with
        | finite b => by_cases zeroNext : b = 0 <;> simp [zero, zeroNext]
        | infinite => simp [zero]
        | undefined => simp
      · cases right with
        | finite b => by_cases zeroNext : b = 0 <;> simp [zero, zeroNext, mul_comm]
        | infinite => simp [zero]
        | undefined => simp
  | infinite =>
      cases right with
      | finite b => by_cases zero : b = 0 <;> simp [zero]
      | infinite => simp
      | undefined => simp

protected theorem neg_neg (ratio : Ratio) : - -ratio = ratio := by
  cases ratio <;> simp

protected theorem neg_mul (left right : Ratio) : -left * right = -(left * right) := by
  cases left <;> cases right <;> simp <;> split_ifs <;> rfl

protected theorem inv_neg (ratio : Ratio) : (-ratio)⁻¹ = -ratio⁻¹ := by
  cases ratio with
  | finite value => by_cases zero : value = 0 <;> simp [zero, inv_neg]
  | infinite => simp
  | undefined => rfl

end Ratio

/-! ### Fractions -/

structure Fraction where
  ratio : Ratio
  dimension : Dimension
  deriving DecidableEq

namespace Fraction

protected theorem ext {left right : Fraction} (ratio : left.ratio = right.ratio)
    (dimension : left.dimension = right.dimension) : left = right := by
  cases left
  cases right
  exact congrArg₂ Fraction.mk ratio dimension

instance : Mul Fraction :=
  ⟨fun left right => ⟨left.ratio * right.ratio, left.dimension + right.dimension⟩⟩

instance : Inv Fraction :=
  ⟨fun fraction => ⟨fraction.ratio⁻¹, -fraction.dimension⟩⟩

instance : Neg Fraction :=
  ⟨fun fraction => { fraction with ratio := -fraction.ratio }⟩

instance : CommMonoid Fraction where
  one := ⟨1, 0⟩
  mul_comm left right := Fraction.ext (mul_comm _ _) (add_comm _ _)
  mul_assoc first second third := Fraction.ext (mul_assoc _ _ _) (add_assoc _ _ _)
  one_mul fraction := Fraction.ext (one_mul _) (zero_add _)
  mul_one fraction := Fraction.ext (mul_one _) (add_zero _)

protected theorem inv_inv (fraction : Fraction) : fraction⁻¹⁻¹ = fraction :=
  Fraction.ext (Ratio.inv_inv _) (neg_neg _)

protected theorem mul_inv (left right : Fraction) : (left * right)⁻¹ = left⁻¹ * right⁻¹ :=
  Fraction.ext (Ratio.mul_inv _ _) (neg_add _ _)

protected theorem neg_mul (left right : Fraction) : -left * right = -(left * right) :=
  Fraction.ext (Ratio.neg_mul _ _) rfl

protected theorem inv_neg (fraction : Fraction) : (-fraction)⁻¹ = -fraction⁻¹ :=
  Fraction.ext (Ratio.inv_neg _) rfl

def of (amount : Amount) : Fraction :=
  ⟨.finite amount.number, amount.dimension⟩

/-- The amount that a fraction is, unless it is divided by zero. -/
def settle? (fraction : Fraction) : Option Amount :=
  match fraction.ratio with
  | .finite number => some { number, dimension := fraction.dimension }
  | _ => none

def share (operator : Operator) (fraction : Fraction) : Fraction :=
  if operator = .divide then fraction⁻¹ else fraction

theorem settle?_eq_some {fraction : Fraction} {amount : Amount} :
    fraction.settle? = some amount ↔ fraction = of amount := by
  obtain ⟨ratio, dimension⟩ := fraction
  obtain ⟨number, vector⟩ := amount
  cases ratio <;> simp [settle?, of]

@[simp] theorem settle?_of (amount : Amount) : (of amount).settle? = some amount :=
  rfl

theorem settle?_neg (fraction : Fraction) : (-fraction).settle? = fraction.settle?.map (-·) := by
  obtain ⟨ratio, dimension⟩ := fraction
  cases ratio <;> rfl

/-- What is divided by zero stays so, whatever it is multiplied by. -/
theorem settle?_mul_eq_none {left : Fraction} (divided : left.settle? = none) (right : Fraction) :
    (left * right).settle? = none := by
  obtain ⟨ratio, dimension⟩ := left
  obtain ⟨other, vector⟩ := right
  cases ratio with
  | finite value => cases divided
  | infinite =>
      cases other with
      | finite value => by_cases zero : value = 0 <;> simp [settle?, HMul.hMul, Mul.mul, Ratio.mul, zero]
      | infinite => rfl
      | undefined => rfl
  | undefined => cases other <;> rfl

theorem of_mul_inv_of (left : Amount) {right : Amount} (nonzero : right.number ≠ 0) :
    of left * (of right)⁻¹ = of ⟨left.number / right.number, left.dimension - right.dimension⟩ := by
  apply Fraction.ext
  · change Ratio.finite left.number * (Ratio.finite right.number)⁻¹ = .finite (left.number / right.number)
    rw [Ratio.inv_finite, if_neg nonzero, Ratio.finite_mul_finite, div_eq_mul_inv]
  · exact (sub_eq_add_neg _ _).symm

theorem settle?_mul_inv_of (left : Amount) {right : Amount} (zero : right.number = 0) :
    (of left * (of right)⁻¹).settle? = none := by
  by_cases zeroToo : left.number = 0
    <;> simp [settle?, HMul.hMul, Mul.mul, Inv.inv, Ratio.inv, Ratio.mul, of, zero, zeroToo]

end Fraction

end QuantityCalculator
