import QuantityCalculator.Proofs.Dimension
import QuantityCalculator.Proofs.Except
import QuantityCalculator.Quantity.Basic

/-!
Exact amounts.

An amount is a rational number with a dimension, and its arithmetic is that of a textbook: exponents are
not bounded, and a power needs a whole exponent.  Quantities with exact numbers compute the same amounts,
or one of their exponents leaves its range.
-/

namespace QuantityCalculator

open Evaluation (UnlessOverflow OrOverflow)

/-! ### Amounts -/

structure Amount where
  number : Rat
  dimension : Dimension
  deriving DecidableEq

namespace Amount

def quantity (amount : Amount) : Quantity :=
  { magnitude := .exact amount.number, dimension := amount.dimension }

def ofQuantity? : Quantity → Option Amount
  | { magnitude := .exact number, dimension } => some { number, dimension }
  | { magnitude := .real _, dimension := _ } => none

theorem ofQuantity?_eq_some {quantity : Quantity} {amount : Amount} :
    ofQuantity? quantity = some amount ↔ quantity = amount.quantity := by
  obtain ⟨magnitude, dimension⟩ := quantity
  obtain ⟨number, vector⟩ := amount
  cases magnitude with
  | exact r => simp [ofQuantity?, Amount.quantity]
  | real x => simp [ofQuantity?, Amount.quantity]

theorem quantity_injective {left right : Amount} (same : left.quantity = right.quantity) :
    left = right :=
  Option.some.inj ((ofQuantity?_eq_some.mpr rfl).symm.trans (ofQuantity?_eq_some.mpr same))

theorem exists_of_isExact {quantity : Quantity} (exact : quantity.magnitude.isExact = true) :
    ∃ amount : Amount, quantity = amount.quantity := by
  obtain ⟨magnitude, dimension⟩ := quantity
  cases magnitude with
  | exact r => exact ⟨{ number := r, dimension }, rfl⟩
  | real x => cases exact

instance : InvolutiveNeg Amount where
  neg amount := { amount with number := -amount.number }
  neg_neg amount := congrArg (fun number => Amount.mk number amount.dimension) (neg_neg amount.number)

@[simp] theorem number_neg (amount : Amount) : (-amount).number = -amount.number :=
  rfl

theorem dimension_neg (amount : Amount) : (-amount).dimension = amount.dimension :=
  rfl

/-! ### Textbook arithmetic -/

/-- A power with a whole exponent; zero has none with a negative one.  Exponents count up to the size up
to which powers are computed exactly. -/
def raise? (base exponent : Amount) : Option Amount :=
  if exponent.dimension = 0 ∧ exponent.number.den = 1 ∧
      exponent.number.num.natAbs ≤ Number.greatestExactExponent ∧
      ¬(base.number = 0 ∧ exponent.number < 0) then
    some
      { number := base.number ^ exponent.number.num
        dimension := exponent.number.num • base.dimension }
  else none

def combine? (operator : Operator) (left right : Amount) : Option Amount :=
  match operator with
  | .add =>
    if left.dimension = right.dimension then some { left with number := left.number + right.number }
    else none
  | .subtract =>
    if left.dimension = right.dimension then some { left with number := left.number - right.number }
    else none
  | .multiply =>
    some { number := left.number * right.number, dimension := left.dimension + right.dimension }
  | .divide =>
    if right.number = 0 then none
    else some { number := left.number / right.number, dimension := left.dimension - right.dimension }
  | .raise => left.raise? right

/-- What an operator may be applied to in front of an amount without changing it. -/
def neutral (operator : Operator) (amount : Amount) : Amount :=
  match operator.precedence with
  | .sum => { number := 0, dimension := amount.dimension }
  | _ => { number := 1, dimension := 0 }

/-- What an operator makes has its dimension in range.  Sums keep the dimension of their terms. -/
def Fits (operator : Operator) (amount : Amount) : Prop :=
  match operator.precedence with
  | .sum => True
  | _ => amount.dimension.InRange

instance (operator : Operator) (amount : Amount) : Decidable (Fits operator amount) :=
  match operator with
  | .add | .subtract => isTrue trivial
  | .multiply | .divide | .raise => inferInstanceAs (Decidable amount.dimension.InRange)

theorem quantity_neutral (operator : Operator) (amount : Amount) :
    (neutral operator amount).quantity = operator.neutral amount.quantity := by
  cases operator <;> rfl

/-! ### Quantities compute amounts -/

theorem ofMeasure_eq {number : Number} {measure : Measure} (coherent : measure.factor.isOne = true) :
    Quantity.ofMeasure number measure = { magnitude := number, dimension := measure.dimension } := by
  unfold Quantity.ofMeasure
  rw [if_pos coherent]

/-- So many of a unit is exact only if the number is. -/
theorem isExact_of_ofMeasure {number : Number} {measure : Measure}
    (exact : (Quantity.ofMeasure number measure).magnitude.isExact = true) : number.isExact = true := by
  cases number with
  | exact r => rfl
  | real x =>
      unfold Quantity.ofMeasure at exact
      dsimp only at exact
      split at exact
      · exact exact
      · cases exact

private theorem isOne_one : Number.one.isOne = true :=
  decide_eq_true (rfl : (1 : Rat) = 1)

private theorem inRange_orOverflow {dimension? : Option Dimension} {expected : Dimension}
    (computes : ∀ {dimension}, dimension? = some dimension ↔ dimension = expected ∧ dimension.InRange) :
    OrOverflow expected.InRange (· = expected) (Measure.inRange dimension?) := by
  cases found : dimension? with
  | none =>
      refine ⟨fun inside => ?_, rfl⟩
      rw [computes.mpr ⟨rfl, inside⟩] at found
      cases found
  | some dimension =>
      obtain ⟨rfl, inside⟩ := computes.mp found
      exact ⟨inside, rfl⟩

private theorem multiply_orOverflow (left right : Dimension) :
    OrOverflow (left + right).InRange
      (fun measure => measure.dimension = left + right ∧ measure.factor.isOne = true)
      ((Measure.coherent left).multiply (Measure.coherent right)) := by
  unfold Measure.multiply
  apply OrOverflow.bind (inRange_orOverflow Dimension.mul?_eq_some)
  rintro dimension rfl
  exact ⟨_, rfl, rfl, decide_eq_true (one_mul (1 : Rat))⟩

private theorem divide_orOverflow (left right : Dimension) :
    OrOverflow (left - right).InRange
      (fun measure => measure.dimension = left - right ∧ measure.factor.isOne = true)
      ((Measure.coherent left).divide (Measure.coherent right)) := by
  unfold Measure.divide
  apply OrOverflow.bind (inRange_orOverflow Dimension.div?_eq_some)
  rintro dimension rfl
  have quotient : Number.one.divide Number.one = .ok (.exact (1 / 1)) := rfl
  refine ⟨{ dimension := left - right, factor := .exact (1 / 1) }, ?_, rfl, decide_eq_true (div_one (1 : Rat))⟩
  change (Number.one.divide Number.one >>= _) = _
  rw [quotient]
  rfl

structure IsWhole (exponent : Rat) : Prop where
  den : exponent.den = 1
  size : exponent.num.natAbs ≤ Number.greatestExactExponent

theorem IsWhole.exactExponent? {exponent : Rat} (whole : IsWhole exponent) (base : Rat) :
    Number.exactExponent? (.exact base) (.exact exponent) = some (base, exponent.num) := by
  exact if_pos (by simp [whole.den, whole.size])

theorem raise_number {base exponent : Rat} (whole : IsWhole exponent)
    (proper : ¬(base = 0 ∧ exponent < 0)) :
    (Number.exact base).raise (.exact exponent) = .ok (.exact (base ^ exponent.num)) := by
  by_cases zero : exponent = 0
  · subst zero
    change Except.ok (Number.exact 1) = _
    rw [Rat.num_zero, zpow_zero]
  · have powerNotZero : (Number.exact exponent).isZero = false := decide_eq_false zero
    have noDivision : ((Number.exact base).isZero && (Number.exact exponent).isNegative) = false := by
      simpa [Number.isZero, Number.isNegative] using proper
    unfold Number.raise
    rw [powerNotZero, noDivision, whole.exactExponent?]
    rfl

private theorem isWhole_of_raise {base exponent : Rat} {power : Number}
    (raised : (Number.exact base).raise (.exact exponent) = .ok power) (exact : power.isExact = true) :
    IsWhole exponent ∧ ¬(base = 0 ∧ exponent < 0) := by
  by_cases zero : exponent = 0
  · subst zero
    exact ⟨⟨rfl, Nat.zero_le _⟩, fun improper => lt_irrefl _ improper.2⟩
  · have powerNotZero : (Number.exact exponent).isZero = false := decide_eq_false zero
    unfold Number.raise at raised
    rw [powerNotZero, if_neg Bool.false_ne_true] at raised
    by_cases improper : base = 0 ∧ exponent < 0
    · rw [if_pos (by simpa [Number.isZero, Number.isNegative] using improper)] at raised
      cases raised
    · refine ⟨?_, improper⟩
      rw [if_neg (by simpa [Number.isZero, Number.isNegative] using improper)] at raised
      by_cases whole : exponent.den = 1 ∧ exponent.num.natAbs ≤ Number.greatestExactExponent
      · exact ⟨whole.1, whole.2⟩
      · have notExact : Number.exactExponent? (.exact base) (.exact exponent) = none :=
          if_neg (by simpa using whole)
        rw [notExact] at raised
        -- the power is computed in doubles, so it is not exact
        change Number.raiseReal _ _ = _ at raised
        unfold Number.raiseReal at raised
        split at raised
        · cases raised
        · dsimp only at raised
          split at raised
          · rw [← Except.ok.inj raised] at exact
            cases exact
          · cases raised

private theorem raise_orOverflow {exponent : Rat} (whole : IsWhole exponent) (dimension : Dimension) :
    OrOverflow (exponent.num • dimension).InRange
      (fun measure => measure.dimension = exponent.num • dimension ∧ measure.factor.isOne = true)
      ((Measure.coherent dimension).raise (.exact exponent)) := by
  unfold Measure.raise
  by_cases trivial : ((Number.exact exponent).isZero || (Measure.coherent dimension).isOne) = true
  · have plain : exponent.num • dimension = 0 := by
      rcases Bool.or_eq_true_iff.mp trivial with zero | one
      · have isZero : exponent = 0 := of_decide_eq_true zero
        rw [isZero, Rat.num_zero, zero_smul]
      · have isZero : dimension = 0 := Dimension.isOne_iff.mp (Bool.and_eq_true_iff.mp one).1
        rw [isZero, smul_zero]
    rw [if_pos trivial, plain]
    exact ⟨Dimension.zero_inRange, rfl, isOne_one⟩
  · rw [if_neg trivial]
    have size := whole.size
    unfold Number.greatestExactExponent at size
    have inRange : (!Binary64.isInt32 exponent.num || !Binary64.isInt32 ((1 : Nat) : Int)) = false := by
      simp only [Binary64.isInt32, Bool.or_eq_false_iff, Bool.not_eq_false', Bool.and_eq_true,
        decide_eq_true_eq]
      omega
    have isRational : (Number.exact exponent).asRat? = some exponent := rfl
    have root : (Measure.coherent dimension).dimension.root? ((1 : Nat) : Int) = some dimension :=
      Dimension.root?_one dimension
    simp only [isRational, whole.den, inRange, root, Bool.false_eq_true, if_false]
    apply OrOverflow.bind (inRange_orOverflow Dimension.pow?_eq_some)
    rintro power rfl
    have factor : (Measure.coherent dimension).factor.raise (.exact exponent) =
        .ok (.exact ((1 : Rat) ^ exponent.num)) :=
      raise_number whole fun improper => one_ne_zero improper.1
    rw [factor]
    exact ⟨_, rfl, rfl, decide_eq_true (one_zpow exponent.num)⟩

theorem raise?_eq_some {base exponent amount : Amount} :
    base.raise? exponent = some amount ↔
      exponent.dimension = 0 ∧ IsWhole exponent.number ∧ ¬(base.number = 0 ∧ exponent.number < 0) ∧
        amount = ⟨base.number ^ exponent.number.num, exponent.number.num • base.dimension⟩ := by
  unfold raise?
  constructor
  · intro raised
    split at raised
    · rename_i conditions
      obtain ⟨plain, whole, size, proper⟩ := conditions
      exact ⟨plain, ⟨whole, size⟩, proper, (Option.some.inj raised).symm⟩
    · cases raised
  · rintro ⟨plain, whole, proper, rfl⟩
    rw [if_pos ⟨plain, whole.den, whole.size, proper⟩]

/-- Exact quantities compute what amounts combine to if it is in range, and else they overflow. -/
theorem apply_orOverflow {operator : Operator} {left right amount : Amount}
    (combined : combine? operator left right = some amount) :
    OrOverflow (Fits operator amount) (· = amount.quantity) (operator.apply left.quantity right.quantity) := by
  have coherently : ∀ (number : Rat) (dimension : Dimension) (measure : Measure),
      measure.dimension = dimension ∧ measure.factor.isOne = true →
        ∃ quantity, (.ok (Quantity.ofMeasure (.exact number) measure) : Except EvaluationError Quantity) =
          .ok quantity ∧ quantity = Amount.quantity ⟨number, dimension⟩ := by
    rintro number dimension measure ⟨rfl, coherent⟩
    exact ⟨_, rfl, ofMeasure_eq coherent⟩
  cases operator with
  | add =>
      change (if left.dimension = right.dimension then _ else _) = _ at combined
      split at combined
      · rename_i same
        rw [← Option.some.inj combined]
        change OrOverflow _ _ (if left.dimension = right.dimension then _ else _)
        rw [if_pos same]
        exact ⟨trivial, rfl⟩
      · cases combined
  | subtract =>
      change (if left.dimension = right.dimension then _ else _) = _ at combined
      split at combined
      · rename_i same
        rw [← Option.some.inj combined]
        change OrOverflow _ _ (if left.dimension = right.dimension then _ else _)
        rw [if_pos same]
        exact ⟨trivial, rfl⟩
      · cases combined
  | multiply =>
      rw [← Option.some.inj combined]
      exact OrOverflow.bind (multiply_orOverflow left.dimension right.dimension) (coherently _ _)
  | divide =>
      change (if right.number = 0 then _ else _) = _ at combined
      split at combined
      · cases combined
      · rename_i nonzero
        rw [← Option.some.inj combined]
        have quotient : left.quantity.magnitude.divide right.quantity.magnitude =
            .ok (.exact (left.number / right.number)) :=
          if_neg (decide_eq_true_iff.not.mpr nonzero)
        change OrOverflow _ _ (left.quantity.magnitude.divide right.quantity.magnitude >>= _)
        rw [quotient]
        change OrOverflow _ _ (left.quantity.measure.divide right.quantity.measure >>= _)
        exact OrOverflow.bind (divide_orOverflow left.dimension right.dimension) (coherently _ _)
  | raise =>
      obtain ⟨plain, whole, proper, rfl⟩ := raise?_eq_some.mp combined
      change OrOverflow _ _ (Quantity.raise left.quantity right.quantity)
      have isPlain : right.quantity.dimension.isOne = true := Dimension.isOne_iff.mpr plain
      have power : left.quantity.magnitude.raise right.quantity.magnitude =
          .ok (.exact (left.number ^ right.number.num)) := raise_number whole proper
      unfold Quantity.raise
      rw [if_pos isPlain, power]
      exact OrOverflow.bind (raise_orOverflow whole left.dimension) (coherently _ _)

theorem apply_unlessOverflow {operator : Operator} {left right amount : Amount}
    (combined : combine? operator left right = some amount) :
    UnlessOverflow (· = amount.quantity) (operator.apply left.quantity right.quantity) :=
  (apply_orOverflow combined).unlessOverflow

/-- Exact quantities make what their amounts combine to, as long as powers stay exact. -/
theorem combine?_of_apply {operator : Operator} {left right : Amount} {quantity : Quantity}
    (applied : operator.apply left.quantity right.quantity = .ok quantity)
    (powerIsExact : operator = .raise → quantity.magnitude.isExact = true) :
    ∃ amount, combine? operator left right = some amount ∧ quantity = amount.quantity := by
  suffices combined : ∃ amount, combine? operator left right = some amount by
    obtain ⟨amount, found⟩ := combined
    have computed := apply_unlessOverflow found
    rw [applied] at computed
    exact ⟨amount, found, computed⟩
  cases operator with
  | add =>
      change (if left.dimension = right.dimension then _ else _) = _ at applied
      split at applied
      · rename_i same
        exact ⟨_, if_pos same⟩
      · cases applied
  | subtract =>
      change (if left.dimension = right.dimension then _ else _) = _ at applied
      split at applied
      · rename_i same
        exact ⟨_, if_pos same⟩
      · cases applied
  | multiply => exact ⟨_, rfl⟩
  | divide =>
      by_cases zero : right.number = 0
      · have failed : left.quantity.magnitude.divide right.quantity.magnitude =
            .error .divisionByZero := if_pos (decide_eq_true zero)
        change (left.quantity.magnitude.divide right.quantity.magnitude >>= _) = _ at applied
        rw [failed] at applied
        cases applied
      · exact ⟨_, if_neg zero⟩
  | raise =>
      change Quantity.raise left.quantity right.quantity = _ at applied
      unfold Quantity.raise at applied
      split at applied
      · rename_i plain
        obtain ⟨measure, _, inMeasure⟩ := bind_eq_ok_iff.mp applied
        obtain ⟨power, raisedNumber, shown⟩ := bind_eq_ok_iff.mp inMeasure
        have exact := powerIsExact rfl
        rw [← Except.ok.inj shown] at exact
        obtain ⟨whole, proper⟩ := isWhole_of_raise raisedNumber (isExact_of_ofMeasure exact)
        exact ⟨_, raise?_eq_some.mpr ⟨Dimension.isOne_iff.mp plain, whole, proper, rfl⟩⟩
      · cases applied

end Amount

end QuantityCalculator
