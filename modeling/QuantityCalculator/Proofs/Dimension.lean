import Mathlib
import QuantityCalculator.Dimension

/-!
Dimensions as a group.

Without a bound on the exponents, products, quotients and powers of dimensions are sums, differences and
multiples of vectors.  The bounded operations give the same results as long as these are in range.
-/

namespace QuantityCalculator.Dimension

instance : Zero Dimension := ⟨one⟩

instance : Add Dimension :=
  ⟨fun left right => ofExponents fun base => left.exponent base + right.exponent base⟩

instance : Neg Dimension :=
  ⟨fun dimension => ofExponents fun base => -dimension.exponent base⟩

instance : Sub Dimension :=
  ⟨fun left right => ofExponents fun base => left.exponent base - right.exponent base⟩

instance : SMul Nat Dimension :=
  ⟨fun n dimension => ofExponents fun base => n • dimension.exponent base⟩

instance : SMul Int Dimension :=
  ⟨fun n dimension => ofExponents fun base => n • dimension.exponent base⟩

@[simp] theorem exponent_zero (base : BaseQuantity) : (0 : Dimension).exponent base = 0 :=
  exponent_ofExponents _ base

@[simp] theorem exponent_add (left right : Dimension) (base : BaseQuantity) :
    (left + right).exponent base = left.exponent base + right.exponent base :=
  exponent_ofExponents _ base

@[simp] theorem exponent_neg (dimension : Dimension) (base : BaseQuantity) :
    (-dimension).exponent base = -dimension.exponent base :=
  exponent_ofExponents _ base

@[simp] theorem exponent_sub (left right : Dimension) (base : BaseQuantity) :
    (left - right).exponent base = left.exponent base - right.exponent base :=
  exponent_ofExponents _ base

@[simp] theorem exponent_nsmul (n : Nat) (dimension : Dimension) (base : BaseQuantity) :
    (n • dimension).exponent base = n • dimension.exponent base :=
  exponent_ofExponents _ base

@[simp] theorem exponent_zsmul (n : Int) (dimension : Dimension) (base : BaseQuantity) :
    (n • dimension).exponent base = n • dimension.exponent base :=
  exponent_ofExponents _ base

theorem exponent_injective : Function.Injective exponent :=
  fun _ _ same => eq_of_exponent fun base => congrFun same base

instance : AddCommGroup Dimension :=
  exponent_injective.addCommGroup exponent (funext exponent_zero)
    (fun left right => funext (exponent_add left right)) (fun dimension => funext (exponent_neg dimension))
    (fun left right => funext (exponent_sub left right))
    (fun dimension n => funext (exponent_nsmul n dimension))
    (fun dimension n => funext (exponent_zsmul n dimension))

theorem one_eq_zero : one = 0 :=
  rfl

@[simp] theorem isOne_iff {dimension : Dimension} : dimension.isOne = true ↔ dimension = 0 := by
  unfold isOne
  rw [decide_eq_true_iff, one_eq_zero]

/-! ### Operations in range -/

def InRange (dimension : Dimension) : Prop :=
  ∀ base, Binary64.isInt32 (dimension.exponent base) = true

theorem zero_inRange : (0 : Dimension).InRange :=
  fun base => by rw [exponent_zero]; rfl

theorem mem_all (base : BaseQuantity) : base ∈ BaseQuantity.all := by
  cases base <;> decide

instance (dimension : Dimension) : Decidable dimension.InRange :=
  decidable_of_iff (∀ base, base ∈ BaseQuantity.all → Binary64.isInt32 (dimension.exponent base) = true)
    ⟨fun each base => each base (mem_all base), fun each base _ => each base⟩

theorem ofExponents?_eq_some {exponents : BaseQuantity → Int} {dimension : Dimension} :
    ofExponents? exponents = some dimension ↔ dimension = ofExponents exponents ∧ dimension.InRange := by
  unfold ofExponents?
  have inside : (BaseQuantity.all.all fun base => Binary64.isInt32 (exponents base)) = true ↔
      (ofExponents exponents).InRange := by
    rw [List.all_eq_true]
    constructor
    · intro each base
      rw [exponent_ofExponents]
      exact each base (mem_all base)
    · intro each base _
      have atBase := each base
      rwa [exponent_ofExponents] at atBase
  constructor
  · intro found
    split at found
    · rename_i each
      rw [← Option.some.inj found]
      exact ⟨rfl, inside.mp each⟩
    · cases found
  · rintro ⟨rfl, each⟩
    rw [if_pos (inside.mpr each)]

theorem mul?_eq_some {left right dimension : Dimension} :
    left.mul? right = some dimension ↔ dimension = left + right ∧ dimension.InRange :=
  ofExponents?_eq_some

theorem div?_eq_some {left right dimension : Dimension} :
    left.div? right = some dimension ↔ dimension = left - right ∧ dimension.InRange :=
  ofExponents?_eq_some

theorem pow?_eq_some {base dimension : Dimension} {power : Int} :
    base.pow? power = some dimension ↔ dimension = power • base ∧ dimension.InRange := by
  have commuted : (fun other => base.exponent other * power) =
      fun other => power • base.exponent other := by
    funext other
    rw [smul_eq_mul, Int.mul_comm]
  unfold pow?
  rw [commuted]
  exact ofExponents?_eq_some

/-- The first root of a dimension is the dimension. -/
theorem root?_one (dimension : Dimension) : dimension.root? 1 = some dimension := by
  unfold root?
  rw [if_pos]
  · congr 1
    apply eq_of_exponent
    intro base
    rw [exponent_ofExponents, Int.ediv_one]
  · simp

end QuantityCalculator.Dimension
