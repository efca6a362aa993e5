import Mathlib.Data.Rat.Lemmas
import QuantityCalculator.Measure.Arithmetic
import QuantityCalculator.Proofs.Dimension

/-!
Rational powers of coherent units.

A power multiplies the exponents of a dimension, as long as the products are whole numbers in range.  The factor
of a coherent unit stays one, although a root computes it in doubles.
-/

namespace QuantityCalculator

namespace Number

inductive IsUnity : Number → Prop where
  | exact : IsUnity (.exact 1)
  | real : IsUnity (.real 1.0)

variable {left right number : Number}

private theorem nearest_one : Binary64.nearest 1 = 1.0 := by
  decide +kernel

theorem IsUnity.isOne (unity : number.IsUnity) : number.isOne = true := by
  cases unity with
  | exact => rfl
  | real => decide +kernel

theorem IsUnity.same (leftUnity : left.IsUnity) (rightUnity : right.IsUnity) : left.same right = true := by
  cases leftUnity <;> cases rightUnity <;> decide +kernel

theorem IsUnity.mul (leftUnity : left.IsUnity) (rightUnity : right.IsUnity) : (left * right).IsUnity := by
  have doubles : (1.0 * 1.0 : Float) = 1.0 := by decide +kernel
  have mixed : ∀ {x y : Float}, x = 1.0 → y = 1.0 → (Number.real (x * y)).IsUnity := by
    rintro x y rfl rfl
    rw [doubles]
    exact .real
  cases leftUnity with
  | exact =>
      cases rightUnity with
      | exact =>
          change (Number.exact (1 * 1)).IsUnity
          rw [one_mul]
          exact .exact
      | real => exact mixed nearest_one rfl
  | real =>
      cases rightUnity with
      | exact => exact mixed rfl nearest_one
      | real => exact mixed rfl rfl

theorem IsUnity.toFloat (unity : number.IsUnity) : number.toFloat = 1.0 := by
  cases unity with
  | exact => exact nearest_one
  | real => rfl

theorem IsUnity.raiseReal (unity : number.IsUnity) (power : Number) :
    number.raiseReal power = .ok (.real 1.0) := by
  have positive : number.isNegative = false := by cases unity <;> decide +kernel
  have finite : (1.0 : Float).isFinite = true := by decide +kernel
  have one : ((1.0 : Float) == 1.0) = true := by decide +kernel
  unfold Number.raiseReal
  rw [positive, Bool.false_and, if_neg Bool.false_ne_true, unity.toFloat]
  simp only [Binary64.power, one, if_true, finite]

/-- One raised to a rational power is one: exactly if the power is whole and of moderate size, and else as a
double. -/
theorem IsUnity.raise (unity : number.IsUnity) (power : Rat) :
    ∃ raised, number.raise (.exact power) = .ok raised ∧ raised.IsUnity := by
  have nonzero : number.isZero = false := by cases unity <;> decide +kernel
  unfold Number.raise
  rw [nonzero, Bool.false_and, if_neg Bool.false_ne_true]
  by_cases zero : (Number.exact power).isZero = true
  · rw [if_pos zero]
    exact ⟨one, rfl, .exact⟩
  · rw [if_neg zero]
    cases exponent : number.exactExponent? (.exact power) with
    | none => exact ⟨.real 1.0, unity.raiseReal _, .real⟩
    | some found =>
        obtain ⟨base, n⟩ := found
        refine ⟨.exact (base ^ n), rfl, ?_⟩
        cases unity with
        | exact =>
            simp only [exactExponent?] at exponent
            split at exponent
            · cases exponent
              rw [one_zpow]
              exact .exact
            · cases exponent
        | real => cases exponent

end Number

namespace Dimension

variable {dimension multiple : Dimension} {power : Rat}

/-- A rational number is a power of a dimension: its numerator and denominator are whole numbers of 32 bits, the
denominator divides every exponent, and the quotients times the numerator are in range. -/
structure Admits (dimension : Dimension) (power : Rat) : Prop where
  num : Binary64.isInt32 power.num = true
  den : Binary64.isInt32 (power.den : Int) = true
  divides : ∀ base, (power.den : Int) ∣ dimension.exponent base
  inRange : ∀ base, Binary64.isInt32 (dimension.exponent base / power.den * power.num) = true

def IsMultiple (multiple dimension : Dimension) (power : Rat) : Prop :=
  ∀ base, (multiple.exponent base : Rat) = dimension.exponent base * power

/-- All exponents are whole numbers of 32 bits other than the least one, so that their opposites are, too. -/
def Moderate (dimension : Dimension) : Prop :=
  ∀ base, (dimension.exponent base).natAbs < 2147483648

private theorem isInt32_of_natAbs_lt {n : Int} (small : n.natAbs < 2147483648) : Binary64.isInt32 n = true := by
  rw [Binary64.isInt32, Bool.and_eq_true, decide_eq_true_iff, decide_eq_true_iff]
  omega

def part (dimension : Dimension) (degree : Int) : Dimension :=
  ofExponents fun base => dimension.exponent base / degree

private theorem exponent_smul_part (dimension : Dimension) (power : Rat) (base : BaseQuantity) :
    (power.num • dimension.part power.den).exponent base = dimension.exponent base / power.den * power.num := by
  rw [exponent_zsmul, part, exponent_ofExponents, smul_eq_mul, mul_comm]

theorem root?_eq_some {degree : Int} {root : Dimension} :
    dimension.root? degree = some root ↔
      degree ≠ 0 ∧ (∀ base, degree ∣ dimension.exponent base) ∧ root = dimension.part degree := by
  have fits : ((degree ≠ 0 && BaseQuantity.all.all fun base => dimension.exponent base % degree = 0) = true) ↔
      degree ≠ 0 ∧ ∀ base, degree ∣ dimension.exponent base := by
    rw [Bool.and_eq_true, decide_eq_true_iff, List.all_eq_true]
    refine and_congr_right fun _ => ⟨fun all base => ?_, fun all base _ => ?_⟩
    · exact Int.dvd_of_emod_eq_zero (of_decide_eq_true (all base (mem_all base)))
    · exact decide_eq_true (Int.emod_eq_zero_of_dvd (all base))
  unfold root?
  constructor
  · intro found
    split at found
    · rename_i both
      obtain ⟨nonzero, divides⟩ := fits.mp both
      exact ⟨nonzero, divides, (Option.some.inj found).symm⟩
    · cases found
  · rintro ⟨nonzero, divides, rfl⟩
    rw [if_pos (fits.mpr ⟨nonzero, divides⟩)]
    rfl

/-- A whole multiple of a whole number by a rational one: the denominator divides the number. -/
theorem den_dvd_of_mul {exponent product : Int} (isProduct : (product : Rat) = exponent * power) :
    (power.den : Int) ∣ exponent ∧ exponent / power.den * power.num = product := by
  have denominator : (power.den : Int) ≠ 0 := Int.natCast_ne_zero.mpr power.den_nz
  have crossed : product * power.den = exponent * power.num := by
    have rational : (product : Rat) * power.den = exponent * power.num := by
      rw [isProduct, mul_assoc, Rat.mul_den_eq_num]
    exact_mod_cast rational
  have divides : (power.den : Int) ∣ exponent := by
    have coprime : IsCoprime (power.den : Int) power.num :=
      Int.isCoprime_iff_gcd_eq_one.mpr (by rw [Int.gcd_comm]; exact power.reduced)
    exact coprime.dvd_of_dvd_mul_right ⟨product, by rw [← crossed, mul_comm]⟩
  refine ⟨divides, ?_⟩
  obtain ⟨quotient, rfl⟩ := divides
  rw [Int.mul_ediv_cancel_left _ denominator]
  apply mul_right_cancel₀ denominator
  rw [crossed]
  ring

/-- Dividing exponents by the denominator and multiplying the quotients by the numerator multiplies them. -/
theorem smul_part_isMultiple (divides : ∀ base, (power.den : Int) ∣ dimension.exponent base) :
    (power.num • dimension.part power.den).IsMultiple dimension power := by
  intro base
  have denominator : (power.den : Int) ≠ 0 := Int.natCast_ne_zero.mpr power.den_nz
  rw [exponent_smul_part]
  obtain ⟨quotient, isExponent⟩ := divides base
  rw [isExponent, Int.mul_ediv_cancel_left _ denominator]
  push_cast
  rw [mul_comm (power.den : Rat), mul_assoc, Rat.den_mul_eq_num]

theorem IsMultiple.unique {other : Dimension} (first : multiple.IsMultiple dimension power)
    (second : other.IsMultiple dimension power) : multiple = other :=
  eq_of_exponent fun base => by exact_mod_cast (first base).trans (second base).symm

theorem IsMultiple.trans {last : Dimension} {next : Rat} (second : last.IsMultiple multiple next)
    (first : multiple.IsMultiple dimension power) : last.IsMultiple dimension (power * next) :=
  fun base => by rw [second base, first base, mul_assoc]

theorem IsMultiple.add {others summand : Dimension} (first : multiple.IsMultiple dimension power)
    (second : others.IsMultiple summand power) : (multiple + others).IsMultiple (dimension + summand) power := by
  intro base
  rw [exponent_add, exponent_add, Int.cast_add, Int.cast_add, first base, second base, add_mul]

/-- The parts of a rational number are no greater than whole numbers of which it is the ratio. -/
theorem Admits.of_isMultiple (isMultiple : multiple.IsMultiple dimension power) (nonzero : power ≠ 0)
    (someExponent : dimension ≠ 0) (moderate : dimension.Moderate) (multipleModerate : multiple.Moderate) :
    dimension.Admits power := by
  have parts := fun base => den_dvd_of_mul (isMultiple base)
  obtain ⟨base, exponent⟩ : ∃ base, dimension.exponent base ≠ 0 := by
    by_contra none
    push Not at none
    exact someExponent (eq_of_exponent fun base => by rw [none base, exponent_zero])
  obtain ⟨divides, product⟩ := parts base
  have numerator : power.num ≠ 0 := Rat.num_ne_zero.mpr nonzero
  have multipleNonzero : multiple.exponent base ≠ 0 := by
    rw [← product]
    exact mul_ne_zero (fun zero => exponent (Int.eq_zero_of_ediv_eq_zero divides zero)) numerator
  have numeratorDivides : power.num ∣ multiple.exponent base := ⟨_, by rw [← product, mul_comm]⟩
  refine ⟨isInt32_of_natAbs_lt ?_, isInt32_of_natAbs_lt ?_, fun other => (parts other).1, fun other => ?_⟩
  · exact lt_of_le_of_lt (Int.natAbs_le_of_dvd_ne_zero numeratorDivides multipleNonzero) (multipleModerate base)
  · exact lt_of_le_of_lt (Int.natAbs_le_of_dvd_ne_zero divides exponent) (moderate base)
  · rw [(parts other).2]
    exact isInt32_of_natAbs_lt (multipleModerate other)

end Dimension

namespace Measure

variable {measure : Measure} {power : Rat}

/-- What a rational power asks of a unit whose factor is one. -/
def Admits (measure : Measure) (power : Rat) : Prop :=
  power = 0 ∨ measure.dimension = 0 ∨ measure.dimension.Admits power

/-- A unit whose factor is one is the coherent unit of its dimension. -/
theorem same_of_isUnity {other : Measure} (unity : measure.factor.IsUnity) (otherUnity : other.factor.IsUnity)
    (dimensions : measure.dimension = other.dimension) : measure.same other = true := by
  rw [same, Bool.and_eq_true, decide_eq_true_iff]
  exact ⟨dimensions, unity.same otherUnity⟩

theorem isOne_iff (unity : measure.factor.IsUnity) : measure.isOne = true ↔ measure.dimension = 0 := by
  rw [isOne, Bool.and_eq_true, Dimension.isOne_iff]
  exact and_iff_left unity.isOne

/-- How a power is computed that is neither zero nor of a plain number. -/
theorem raise_eq (unity : measure.factor.IsUnity) (nonzero : power ≠ 0) (someExponent : measure.dimension ≠ 0) :
    measure.raise (.exact power) =
      if !Binary64.isInt32 power.num || !Binary64.isInt32 (power.den : Int) then .error .overflow
      else
        match measure.dimension.root? (power.den : Int) with
        | none => .error (.indivisibleExponents measure (.exact power))
        | some root => do
          let dimension ← inRange (root.pow? power.num)
          let factor ← measure.factor.raise (.exact power)
          return { dimension, factor } := by
  have proceeds : ((Number.exact power).isZero || measure.isOne) = false := by
    rw [Bool.or_eq_false_iff, ← Bool.not_eq_true, ← Bool.not_eq_true, isOne_iff unity]
    exact ⟨fun zero => nonzero (of_decide_eq_true zero), someExponent⟩
  unfold raise
  rw [proceeds, if_neg Bool.false_ne_true]
  rfl

private theorem raise_of_trivial (unity : measure.factor.IsUnity) (trivially : power = 0 ∨ measure.dimension = 0) :
    measure.raise (.exact power) = .ok one := by
  refine if_pos (Bool.or_eq_true_iff.mpr ?_)
  rcases trivially with zero | plain
  · exact Or.inl (decide_eq_true zero)
  · exact Or.inr ((isOne_iff unity).mpr plain)

/-- A power that a unit admits multiplies its exponents. -/
theorem exists_raise (unity : measure.factor.IsUnity) (admits : measure.Admits power) :
    ∃ raised, measure.raise (.exact power) = .ok raised ∧ raised.factor.IsUnity ∧
      raised.dimension.IsMultiple measure.dimension power := by
  by_cases trivially : power = 0 ∨ measure.dimension = 0
  · refine ⟨one, raise_of_trivial unity trivially, .exact, fun base => ?_⟩
    change ((0 : Dimension).exponent base : Rat) = _
    rcases trivially with zero | plain
    · rw [zero, mul_zero, Dimension.exponent_zero, Int.cast_zero]
    · rw [plain, Dimension.exponent_zero, Int.cast_zero, zero_mul]
  · obtain ⟨nonzero, someExponent⟩ := not_or.mp trivially
    obtain ⟨num, den, divides, inRange⟩ := (admits.resolve_left nonzero).resolve_left someExponent
    obtain ⟨factor, raisedFactor, factorUnity⟩ := unity.raise power
    have root := Dimension.root?_eq_some.mpr ⟨Int.natCast_ne_zero.mpr power.den_nz, divides, rfl⟩
    have product : (measure.dimension.part power.den).pow? power.num =
        some (power.num • measure.dimension.part power.den) := by
      refine Dimension.pow?_eq_some.mpr ⟨rfl, fun base => ?_⟩
      rw [Dimension.exponent_smul_part]
      exact inRange base
    refine ⟨⟨_, factor⟩, ?_, factorUnity, Dimension.smul_part_isMultiple divides⟩
    rw [raise_eq unity nonzero someExponent, num, den, root]
    simp only [Measure.inRange, product, raisedFactor]
    rfl

private theorem admits_of_raise (unity : measure.factor.IsUnity) {raised : Measure}
    (isRaised : measure.raise (.exact power) = .ok raised) : measure.Admits power := by
  by_cases trivially : power = 0 ∨ measure.dimension = 0
  · exact trivially.imp_right Or.inl
  · obtain ⟨nonzero, someExponent⟩ := not_or.mp trivially
    rw [raise_eq unity nonzero someExponent] at isRaised
    split at isRaised
    · cases isRaised
    · rename_i inRange
      rw [Bool.not_eq_true, Bool.or_eq_false_iff, Bool.not_eq_false', Bool.not_eq_false'] at inRange
      split at isRaised
      · cases isRaised
      · rename_i root found
        obtain ⟨_, divides, rfl⟩ := Dimension.root?_eq_some.mp found
        cases multiplied : (measure.dimension.part power.den).pow? power.num with
        | none =>
            simp only [multiplied, Measure.inRange] at isRaised
            cases isRaised
        | some product =>
            obtain ⟨rfl, products⟩ := Dimension.pow?_eq_some.mp multiplied
            refine Or.inr (Or.inr ⟨inRange.1, inRange.2, divides, fun base => ?_⟩)
            rw [← Dimension.exponent_smul_part]
            exact products base

/-- What comes of a power: a coherent unit, whose exponents are multiplied. -/
theorem of_raise (unity : measure.factor.IsUnity) {raised : Measure}
    (isRaised : measure.raise (.exact power) = .ok raised) :
    raised.factor.IsUnity ∧ raised.dimension.IsMultiple measure.dimension power := by
  obtain ⟨found, isFound, properties⟩ := exists_raise unity (admits_of_raise unity isRaised)
  rw [isRaised] at isFound
  rwa [Except.ok.inj isFound]

/-- A power of a power is the power by the product. -/
theorem raise_raise (unity : measure.factor.IsUnity) {first second : Measure} {next : Rat}
    (isFirst : measure.raise (.exact power) = .ok first) (isSecond : first.raise (.exact next) = .ok second)
    (moderate : measure.dimension.Moderate) (secondModerate : second.dimension.Moderate) :
    ∃ direct, measure.raise (.exact (power * next)) = .ok direct ∧ direct.same second = true := by
  obtain ⟨firstUnity, firstMultiple⟩ := of_raise unity isFirst
  obtain ⟨secondUnity, secondMultiple⟩ := of_raise firstUnity isSecond
  have multiple := secondMultiple.trans firstMultiple
  have admits : measure.Admits (power * next) := by
    by_cases zero : power * next = 0
    · exact Or.inl zero
    · by_cases plain : measure.dimension = 0
      · exact Or.inr (Or.inl plain)
      · exact Or.inr (Or.inr (.of_isMultiple multiple zero plain moderate secondModerate))
  obtain ⟨direct, isDirect, directUnity, directMultiple⟩ := exists_raise unity admits
  exact ⟨direct, isDirect, same_of_isUnity directUnity secondUnity (directMultiple.unique multiple)⟩

theorem multiply_eq_ok {left right product : Measure} (isProduct : left.multiply right = .ok product) :
    product.dimension = left.dimension + right.dimension ∧ product.dimension.InRange ∧
      product.factor = left.factor * right.factor := by
  unfold multiply at isProduct
  cases found : left.dimension.mul? right.dimension with
  | none =>
      simp only [found, inRange] at isProduct
      cases isProduct
  | some dimension =>
      simp only [found, inRange] at isProduct
      cases isProduct
      obtain ⟨isSum, inside⟩ := Dimension.mul?_eq_some.mp found
      exact ⟨isSum, inside, rfl⟩

/-- If both factors admit a power, and what they make is in range, then their product admits it. -/
theorem Admits.multiply {left right product : Measure} (leftAdmits : left.Admits power)
    (rightAdmits : right.Admits power) (isSum : product.dimension = left.dimension + right.dimension)
    {multiple : Dimension} (isMultiple : multiple.IsMultiple product.dimension power) (inside : multiple.InRange) :
    product.Admits power := by
  by_cases zero : power = 0
  · exact Or.inl zero
  · by_cases plain : product.dimension = 0
    · exact Or.inr (Or.inl plain)
    · obtain ⟨num, den⟩ : Binary64.isInt32 power.num = true ∧ Binary64.isInt32 (power.den : Int) = true := by
        rcases leftAdmits.resolve_left zero with leftPlain | leftFits
        · rcases rightAdmits.resolve_left zero with rightPlain | rightFits
          · rw [isSum, leftPlain, rightPlain, add_zero] at plain
            exact absurd rfl plain
          · exact ⟨rightFits.num, rightFits.den⟩
        · exact ⟨leftFits.num, leftFits.den⟩
      refine Or.inr (Or.inr ⟨num, den, fun base => (Dimension.den_dvd_of_mul (isMultiple base)).1, fun base => ?_⟩)
      rw [(Dimension.den_dvd_of_mul (isMultiple base)).2]
      exact inside base

/-- The power of a product is the product of the powers. -/
theorem raise_multiply {left right leftRaised rightRaised both product : Measure}
    (leftUnity : left.factor.IsUnity) (rightUnity : right.factor.IsUnity)
    (isLeft : left.raise (.exact power) = .ok leftRaised) (isRight : right.raise (.exact power) = .ok rightRaised)
    (isBoth : left.multiply right = .ok both) (isProduct : leftRaised.multiply rightRaised = .ok product) :
    ∃ raised, both.raise (.exact power) = .ok raised ∧ raised.same product = true := by
  obtain ⟨leftRaisedUnity, leftMultiple⟩ := of_raise leftUnity isLeft
  obtain ⟨rightRaisedUnity, rightMultiple⟩ := of_raise rightUnity isRight
  obtain ⟨bothSum, _, bothFactor⟩ := multiply_eq_ok isBoth
  obtain ⟨productSum, inside, productFactor⟩ := multiply_eq_ok isProduct
  have multiple : product.dimension.IsMultiple both.dimension power := by
    rw [productSum, bothSum]
    exact leftMultiple.add rightMultiple
  have bothUnity : both.factor.IsUnity := by
    rw [bothFactor]
    exact leftUnity.mul rightUnity
  have productUnity : product.factor.IsUnity := by
    rw [productFactor]
    exact leftRaisedUnity.mul rightRaisedUnity
  have admits := (admits_of_raise leftUnity isLeft).multiply (admits_of_raise rightUnity isRight) bothSum multiple inside
  obtain ⟨raised, isRaised, raisedUnity, raisedMultiple⟩ := exists_raise bothUnity admits
  exact ⟨raised, isRaised, same_of_isUnity raisedUnity productUnity (raisedMultiple.unique multiple)⟩

/-- A rational power of a coherent unit multiplies its exponents.  It exists if the power is zero, the unit is that of
plain numbers, or the products are whole numbers in range; and powers of powers and of products are what they are
for numbers. -/
theorem raise_coherent (dimension : Dimension) (power : Rat) :
    ((∃ raised, (coherent dimension).raise (.exact power) = .ok raised) ↔
        power = 0 ∨ dimension = Dimension.one ∨ dimension.Admits power) ∧
      (∀ raised, (coherent dimension).raise (.exact power) = .ok raised →
        ∃ multiple : Dimension, raised.same (coherent multiple) = true ∧ multiple.IsMultiple dimension power) ∧
      (∀ next first second, dimension.Moderate → second.dimension.Moderate →
        (coherent dimension).raise (.exact power) = .ok first → first.raise (.exact next) = .ok second →
          ∃ direct, (coherent dimension).raise (.exact (power * next)) = .ok direct ∧ direct.same second = true) ∧
      ∀ other left right both product, (coherent dimension).raise (.exact power) = .ok left →
        (coherent other).raise (.exact power) = .ok right →
        (coherent dimension).multiply (coherent other) = .ok both → left.multiply right = .ok product →
          ∃ raised, both.raise (.exact power) = .ok raised ∧ raised.same product = true := by
  have unity : ∀ dimension, (coherent dimension).factor.IsUnity := fun _ => .exact
  refine ⟨⟨?_, ?_⟩, ?_, ?_, ?_⟩
  · rintro ⟨raised, isRaised⟩
    exact admits_of_raise (unity dimension) isRaised
  · intro admits
    obtain ⟨raised, isRaised, _⟩ := exists_raise (unity dimension) admits
    exact ⟨raised, isRaised⟩
  · intro raised isRaised
    obtain ⟨raisedUnity, multiple⟩ := of_raise (unity dimension) isRaised
    exact ⟨raised.dimension, same_of_isUnity raisedUnity (unity _) rfl, multiple⟩
  · intro next first second moderate secondModerate isFirst isSecond
    exact raise_raise (unity dimension) isFirst isSecond moderate secondModerate
  · intro other left right both product isLeft isRight isBoth isProduct
    exact raise_multiply (unity dimension) (unity other) isLeft isRight isBoth isProduct

/-- Powers of the square meter per second. -/
def viscosity (power : Int) : Dimension :=
  { Dimension.one with length := 2 * power, time := -power }

theorem raise_coherent_viscosity :
    (∃ first second direct, (coherent (viscosity 2)).raise (.exact (1 / 2)) = .ok first ∧
      first.raise (.exact (-3)) = .ok second ∧
      (coherent (viscosity 2)).raise (.exact (1 / 2 * -3)) = .ok direct ∧ direct.same second = true) ∧
      ¬∃ raised, (coherent (viscosity 1)).raise (.exact (1 / 2)) = .ok raised := by
  have root : (viscosity 1).IsMultiple (viscosity 2) (1 / 2) := by
    intro base
    cases base <;> decide +kernel
  have cube : (viscosity (-3)).IsMultiple (viscosity 1) (-3) := by
    intro base
    cases base <;> decide +kernel
  have moderate : ∀ power, power ∈ [-3, 1, 2] → (viscosity power).Moderate := by
    unfold Dimension.Moderate
    intro power member base
    revert power
    cases base <;> decide
  have rootAdmits : (viscosity 2).Admits (1 / 2) :=
    .of_isMultiple root (by norm_num) (by decide) (moderate 2 (by decide)) (moderate 1 (by decide))
  obtain ⟨first, isFirst⟩ := (raise_coherent (viscosity 2) (1 / 2)).1.mpr (Or.inr (Or.inr rootAdmits))
  obtain ⟨firstUnity, firstMultiple⟩ := of_raise .exact isFirst
  have firstDimension : first.dimension = viscosity 1 := firstMultiple.unique root
  have cubeAdmits : first.Admits (-3) := by
    refine Or.inr (Or.inr ?_)
    rw [firstDimension]
    exact .of_isMultiple cube (by norm_num) (by decide) (moderate 1 (by decide)) (moderate (-3) (by decide))
  obtain ⟨second, isSecond, _, secondMultiple⟩ := exists_raise firstUnity cubeAdmits
  have secondDimension : second.dimension = viscosity (-3) := by
    rw [firstDimension] at secondMultiple
    exact secondMultiple.unique cube
  obtain ⟨direct, isDirect, same⟩ := (raise_coherent (viscosity 2) (1 / 2)).2.2.1 (-3) first second
    (moderate 2 (by decide)) (secondDimension ▸ moderate (-3) (by decide)) isFirst isSecond
  refine ⟨⟨first, second, direct, isFirst, isSecond, isDirect, same⟩, fun hasRoot => ?_⟩
  rcases (raise_coherent (viscosity 1) (1 / 2)).1.mp hasRoot with zero | plain | admits
  · norm_num at zero
  · exact absurd plain (by decide)
  · -- the exponent of time is odd
    have divides := admits.divides .time
    revert divides
    decide +kernel

end Measure

end QuantityCalculator
