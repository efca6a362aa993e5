import QuantityCalculator.Proofs.Evaluation.Exact
import QuantityCalculator.Proofs.Expression.Fraction

/-!
Evaluating fractions.

On exact numbers, multiplying by a fraction is the same as multiplying by its numerator and dividing by its
denominator, failures included.  So expressions that are alike are evaluated alike, and come to a quantity or a
failure.
-/

namespace QuantityCalculator

/-! ### Arithmetic -/

namespace Amount

def plain (number : Rat) : Amount := { number, dimension := 0 }

private theorem mul?_zero_of_mul?_zero {dimension same : Dimension} (found : dimension.mul? 0 = some same) :
    same.mul? 0 = some same :=
  Dimension.mul?_eq_some.mpr ⟨(add_zero same).symm, (Dimension.mul?_eq_some.mp found).2⟩

private theorem div?_zero (dimension : Dimension) : dimension.div? 0 = dimension.mul? 0 := by
  unfold Dimension.div? Dimension.mul?
  congr 1
  funext base
  rw [Dimension.exponent_zero, sub_zero, add_zero]

private theorem multiply_plain (amount : Amount) (number : Rat) :
    amount.quantity.multiply (plain number).quantity =
      (Measure.inRange (amount.dimension.mul? 0)).map fun dimension =>
        (Amount.mk (amount.number * number) dimension).quantity := by
  change ((Measure.inRange (amount.dimension.mul? 0) >>= _) >>= _) = _
  cases amount.dimension.mul? 0 with
  | none => rfl
  | some dimension => exact congrArg Except.ok (ofMeasure_eq (decide_eq_true (one_mul (1 : Rat))))

private theorem divide_plain (amount : Amount) {number : Rat} (nonzero : number ≠ 0) :
    amount.quantity.divide (plain number).quantity =
      (Measure.inRange (amount.dimension.mul? 0)).map fun dimension =>
        (Amount.mk (amount.number / number) dimension).quantity := by
  have quotient : amount.quantity.magnitude.divide (plain number).quantity.magnitude =
      .ok (.exact (amount.number / number)) :=
    if_neg (decide_eq_true_iff.not.mpr nonzero)
  change (amount.quantity.magnitude.divide (plain number).quantity.magnitude >>= _) = _
  rw [quotient, ← div?_zero]
  change ((Measure.inRange (amount.dimension.div? 0) >>= _) >>= _) = _
  cases amount.dimension.div? 0 with
  | none => rfl
  | some dimension => exact congrArg Except.ok (ofMeasure_eq (decide_eq_true (div_one (1 : Rat))))

private theorem divide_plain_zero (amount : Amount) :
    amount.quantity.divide (plain 0).quantity = .error .divisionByZero :=
  rfl

/-- An exact number is multiplied or divided by a fraction in one step or in two. -/
theorem apply_fraction {operator : Operator} (isProduct : operator.precedence = .product) (amount : Amount)
    {n d : Rat} (nonzero : d ≠ 0) :
    operator.apply amount.quantity (plain (n / d)).quantity =
      (operator.apply amount.quantity (plain n).quantity).bind fun next =>
        (operator.through .divide).apply next (plain d).quantity := by
  cases operator with
  | multiply =>
      change amount.quantity.multiply (plain (n / d)).quantity =
        (amount.quantity.multiply (plain n).quantity).bind fun next => next.divide (plain d).quantity
      rw [multiply_plain, multiply_plain]
      cases inRange : amount.dimension.mul? 0 with
      | none => rfl
      | some dimension =>
          change _ = (Amount.mk (amount.number * n) dimension).quantity.divide (plain d).quantity
          rw [divide_plain _ nonzero, mul?_zero_of_mul?_zero inRange, ← mul_div_assoc]
  | divide =>
      change amount.quantity.divide (plain (n / d)).quantity =
        (amount.quantity.divide (plain n).quantity).bind fun next => next.multiply (plain d).quantity
      by_cases zero : n = 0
      · -- A fraction that is zero fails as a divisor just as its numerator does.
        rw [zero, zero_div, divide_plain_zero]
        rfl
      · rw [divide_plain _ (div_ne_zero zero nonzero), divide_plain _ zero]
        cases inRange : amount.dimension.mul? 0 with
        | none => rfl
        | some dimension =>
            change _ = (Amount.mk (amount.number / n) dimension).quantity.multiply (plain d).quantity
            have quotient : amount.number / (n / d) = amount.number / n * d := by
              rw [div_div_eq_mul_div, div_mul_eq_mul_div]
            rw [multiply_plain, mul?_zero_of_mul?_zero inRange, quotient]
  | _ => cases isProduct

end Amount

namespace Evaluation

open Expression (Alike Exact Factor Steps chainOf fusedSteps linksOf literal ownSteps)

/-! ### Chains -/

def Folded.ofQuantity (value : Quantity) : Folded := { known := some value, residual := [] }

def takeValue (known : Option Quantity) (operator : Operator) (value : Quantity) : Except EvaluationError Quantity :=
  operator.apply (known.getD (operator.neutral value)) value

private theorem foldStep_of_outcome {evaluate : Expression → Except EvaluationError Expression} {operand : Expression}
    {outcome : Except EvaluationError Quantity} (evaluated : evaluate operand = outcome.map .quantity)
    (known : Option Quantity) (operator : Operator) :
    foldStep evaluate { known, residual := [] } (operator, operand) =
      (outcome.bind (takeValue known operator)).map Folded.ofQuantity := by
  unfold foldStep
  rw [evaluated]
  cases outcome with
  | error cause => rfl
  | ok value =>
      change (operator.apply (known.getD (operator.neutral value)) value >>= _) = _
      change _ = (operator.apply (known.getD (operator.neutral value)) value).map _
      cases operator.apply (known.getD (operator.neutral value)) value <;> rfl

private theorem foldStep_literal {evaluate : Expression → Except EvaluationError Expression} {value : Rat}
    (evaluated : evaluate (literal value) = .ok (literal value)) (known : Option Quantity) (operator : Operator) :
    foldStep evaluate { known, residual := [] } (operator, literal value) =
      (takeValue known operator (.ofNumber (.exact value))).map Folded.ofQuantity := by
  have isOutcome : evaluate (literal value) = (Except.ok (Quantity.ofNumber (.exact value))).map .quantity := evaluated
  exact foldStep_of_outcome isOutcome known operator

def IsExactSoFar (known : Option Quantity) : Prop :=
  ∀ front, known = some front → front.magnitude.isExact = true

private theorem isExact_takeValue {known : Option Quantity} {operator : Operator} (noRaise : operator ≠ .raise)
    {value next : Quantity} (knownExact : IsExactSoFar known)
    (isExact : value.magnitude.isExact = true) (taken : takeValue known operator value = .ok next) :
    next.magnitude.isExact = true := by
  obtain ⟨amount, rfl⟩ := Amount.exists_of_isExact isExact
  have front : (known.getD (operator.neutral amount.quantity)).magnitude.isExact = true := by
    cases known with
    | none =>
        rw [Option.getD_none, ← Amount.quantity_neutral]
        rfl
    | some front => exact knownExact front rfl
  obtain ⟨frontAmount, isFront⟩ := Amount.exists_of_isExact front
  unfold takeValue at taken
  rw [isFront] at taken
  obtain ⟨total, _, rfl⟩ := Amount.combine?_of_apply taken fun isRaise => absurd isRaise noRaise
  rfl

private theorem takeValue_fraction {known : Option Quantity} {operator : Operator}
    (isProduct : operator.precedence = .product)
    (knownExact : IsExactSoFar known) {n d : Rat} (nonzero : d ≠ 0) :
    takeValue known operator (.ofNumber (.exact (n / d))) =
      (takeValue known operator (.ofNumber (.exact n))).bind fun next =>
        takeValue (some next) (operator.through .divide) (.ofNumber (.exact d)) := by
  obtain ⟨amount, isFront⟩ : ∃ amount : Amount, ∀ value, known.getD (operator.neutral value) = amount.quantity := by
    cases known with
    | none =>
        cases operator with
        | multiply => exact ⟨{ number := 1, dimension := 0 }, fun _ => rfl⟩
        | divide => exact ⟨{ number := 1, dimension := 0 }, fun _ => rfl⟩
        | _ => cases isProduct
    | some front =>
        obtain ⟨amount, rfl⟩ := Amount.exists_of_isExact (knownExact front rfl)
        exact ⟨amount, fun _ => rfl⟩
  simp only [takeValue, isFront]
  exact Amount.apply_fraction isProduct amount nonzero

/-- What two evaluations have to do on a part of two chains. -/
def Agrees (powers : List Expression → Prop) (first second : Expression → Except EvaluationError Expression) :
    Factor → Prop
  | .whole operator fused own =>
    operator ≠ .raise ∧ ∃ outcome : Except EvaluationError Quantity, first fused = outcome.map .quantity ∧
      second own = outcome.map .quantity ∧
        (own.Exact powers → ∀ value, outcome = .ok value → value.magnitude.isExact = true)
  | .fraction operator n d =>
    operator.precedence = .product ∧ d ≠ 0 ∧ first (literal (n / d)) = .ok (literal (n / d)) ∧
      second (literal n) = .ok (literal n) ∧ second (literal d) = .ok (literal d)

/-- A fraction makes the same of an exact quantity as its numerator and its denominator. -/
theorem foldlM_fraction {evaluate : Expression → Except EvaluationError Expression} {known : Option Quantity}
    {operator : Operator} (isProduct : operator.precedence = .product) (knownExact : IsExactSoFar known) {n d : Rat}
    (nonzero : d ≠ 0) (isNumerator : evaluate (literal n) = .ok (literal n))
    (isDenominator : evaluate (literal d) = .ok (literal d)) :
    (Factor.fraction operator n d).ownSteps.foldlM (foldStep evaluate) { known, residual := [] } =
      (takeValue known operator (.ofNumber (.exact (n / d)))).map Folded.ofQuantity := by
  change [(operator, literal n), (operator.through .divide, literal d)].foldlM _ _ = _
  rw [List.foldlM_cons, foldStep_literal isNumerator, takeValue_fraction isProduct knownExact nonzero]
  cases takeValue known operator (.ofNumber (.exact n)) with
  | error cause => rfl
  | ok next =>
      change [(operator.through .divide, literal d)].foldlM (foldStep evaluate)
        { known := some next, residual := [] } = _
      rw [List.foldlM_cons, foldStep_literal isDenominator]
      change _ = (takeValue (some next) (operator.through .divide) (.ofNumber (.exact d))).map _
      cases takeValue (some next) (operator.through .divide) (.ofNumber (.exact d)) <;> rfl

/-- A part of two chains makes the same of what is known in front of it. -/
theorem foldlM_factor {powers : List Expression → Prop}
    {first second : Expression → Except EvaluationError Expression} {factor : Factor}
    (agrees : Agrees powers first second factor) {known : Option Quantity}
    (knownExact : factor.isFraction = true → IsExactSoFar known) :
    ∃ outcome : Except EvaluationError Quantity,
      factor.fusedSteps.foldlM (foldStep first) { known, residual := [] } = outcome.map Folded.ofQuantity ∧
        factor.ownSteps.foldlM (foldStep second) { known, residual := [] } = outcome.map Folded.ofQuantity ∧
          (factor.IsExact powers → IsExactSoFar known → ∀ next, outcome = .ok next →
            next.magnitude.isExact = true) := by
  have single {evaluate : Expression → Except EvaluationError Expression} (step : Operator × Expression) :
      [step].foldlM (foldStep evaluate) { known, residual := [] } =
        foldStep evaluate { known, residual := [] } step := by
    rw [List.foldlM_cons]
    exact bind_pure _
  cases factor with
  | whole operator fused own =>
      obtain ⟨noRaise, outcome, isFirst, isSecond, operandExact⟩ := agrees
      refine ⟨outcome.bind (takeValue known operator), (single _).trans (foldStep_of_outcome isFirst known operator),
        (single _).trans (foldStep_of_outcome isSecond known operator), fun ownExact exact next taken => ?_⟩
      cases outcome with
      | error cause => cases taken
      | ok value => exact isExact_takeValue noRaise exact (operandExact ownExact value rfl) taken
  | fraction operator n d =>
      obtain ⟨isProduct, nonzero, isFraction, isNumerator, isDenominator⟩ := agrees
      have noRaise : operator ≠ .raise := by
        rintro rfl
        cases isProduct
      exact ⟨takeValue known operator (.ofNumber (.exact (n / d))),
        (single _).trans (foldStep_literal isFraction known operator),
        foldlM_fraction isProduct (knownExact rfl) nonzero isNumerator isDenominator,
        fun _ exact next taken => isExact_takeValue noRaise exact rfl taken⟩

private theorem foldlM_of_agrees {powers : List Expression → Prop}
    {first second : Expression → Except EvaluationError Expression} {factors : List Factor}
    (guarded : Expression.Guarded powers factors)
    (agrees : ∀ factor, factor ∈ factors → Agrees powers first second factor) {known : Option Quantity}
    (begun : factors ≠ [] ∨ known.isSome = true)
    (knownExact : factors.any Factor.isFraction = true → IsExactSoFar known) :
    ∃ outcome : Except EvaluationError Quantity,
      (fusedSteps factors).foldlM (foldStep first) { known, residual := [] } = outcome.map Folded.ofQuantity ∧
        (ownSteps factors).foldlM (foldStep second) { known, residual := [] } = outcome.map Folded.ofQuantity := by
  -- What is known stays exact up to the last fraction; behind it nothing has to be.
  induction factors generalizing known with
  | nil =>
      obtain ⟨value, rfl⟩ := Option.isSome_iff_exists.mp (begun.resolve_left (absurd rfl))
      exact ⟨.ok value, rfl, rfl⟩
  | cons factor rest ih =>
      obtain ⟨factorAgrees, restAgrees⟩ := List.forall_mem_cons.mp agrees
      obtain ⟨factorExact, restGuarded⟩ := guarded
      rw [List.any_cons] at knownExact
      obtain ⟨outcome, isFused, isOwn, exactNext⟩ := foldlM_factor factorAgrees fun isFraction =>
        knownExact (Bool.or_eq_true_iff.mpr (Or.inl isFraction))
      rw [fusedSteps, ownSteps, List.flatMap_cons, List.flatMap_cons, List.foldlM_append, List.foldlM_append, isFused,
        isOwn]
      cases outcome with
      | error cause => exact ⟨.error cause, rfl, rfl⟩
      | ok next =>
          refine ih restGuarded restAgrees (Or.inr rfl) fun hasFraction front isFront => ?_
          obtain rfl : next = front := Option.some.inj isFront
          exact exactNext (factorExact hasFraction)
            (knownExact (Bool.or_eq_true_iff.mpr (Or.inr hasFraction))) next rfl

private theorem leading_of_forward {first second : Operator} (forward : first.forward = first)
    (same : second.precedence = first.precedence) : second.forward = first := by
  cases first <;> cases second <;>
    first | rfl | exact absurd same (by decide) | exact absurd forward (by decide)

private theorem chainSteps_linksOf {precedence : Precedence} {steps : Steps} (several : 2 ≤ steps.length)
    (single : ∀ step, step ∈ steps → step.1.precedence = precedence)
    (leads : ∃ lead rest, steps = lead :: rest ∧ lead.1.forward = lead.1 ∧ lead.1.precedence = precedence) :
    chainSteps (linksOf steps).operators (linksOf steps).operands = steps := by
  obtain ⟨first, rest, rfl, forward, isOf⟩ := leads
  cases rest with
  | nil => exact absurd (Nat.le_of_succ_le_succ several) (Nat.not_succ_le_zero 0)
  | cons second others =>
      have isSecond := single second (List.mem_cons_of_mem _ List.mem_cons_self)
      have leading := leading_of_forward forward (isSecond.trans isOf.symm)
      have whole : others = (others.map Prod.fst).zip (others.map Prod.snd) := List.zip_of_prod rfl rfl
      change (second.1.forward :: second.1 :: others.map Prod.fst).zip (first.2 :: second.2 :: others.map Prod.snd) = _
      rw [leading, List.zip_cons_cons, List.zip_cons_cons, ← whole]

/-- A chain whose steps fold into a quantity is evaluated to it. -/
theorem foldChain_of_foldlM {evaluate : Expression → Except EvaluationError Expression} {steps : Steps}
    {outcome : Except EvaluationError Quantity}
    (isChain : chainSteps (linksOf steps).operators (linksOf steps).operands = steps)
    (folded : steps.foldlM (foldStep evaluate) Folded.start = outcome.map Folded.ofQuantity) :
    foldChain evaluate (linksOf steps).operators (linksOf steps).operands = outcome.map .quantity := by
  unfold chainSteps at isChain
  rw [foldChain, isChain, folded]
  cases outcome <;> rfl

private theorem precedence_steps {powers : List Expression → Prop} {precedence : Precedence} {factors : List Factor}
    (fits : Expression.Fits powers precedence factors) :
    (∀ step, step ∈ fusedSteps factors → step.1.precedence = precedence) ∧
      ∀ step, step ∈ ownSteps factors → step.1.precedence = precedence := by
  constructor
  · intro step member
    obtain ⟨factor, inFactors, isStep⟩ := List.mem_flatMap.mp member
    have single := fits.single factor inFactors
    cases factor <;> cases List.mem_singleton.mp isStep <;> exact single
  · intro step member
    obtain ⟨factor, inFactors, isStep⟩ := List.mem_flatMap.mp member
    have single := fits.single factor inFactors
    cases factor with
    | whole operator fused own =>
        cases List.mem_singleton.mp isStep
        exact single
    | fraction operator n d =>
        rcases List.mem_cons.mp isStep with rfl | later
        · exact single
        · cases List.mem_singleton.mp later
          exact (Operator.precedence_through operator .divide).trans single

private theorem length_le_steps (factors : List Factor) :
    factors.length ≤ (fusedSteps factors).length ∧ factors.length ≤ (ownSteps factors).length := by
  induction factors with
  | nil => exact ⟨Nat.le_refl 0, Nat.le_refl 0⟩
  | cons first rest ih =>
      obtain ⟨fusedLonger, ownLonger⟩ := ih
      rw [fusedSteps, ownSteps, List.flatMap_cons, List.flatMap_cons, ← fusedSteps, ← ownSteps, List.length_append,
        List.length_append, List.length_cons]
      cases first <;> simp only [Factor.fusedSteps, Factor.ownSteps, List.length_cons, List.length_nil] <;> omega

/-! ### Towers -/

/-- Operands that are evaluated alike make the same power. -/
theorem foldTower_of_each {first second : Expression → Except EvaluationError Expression}
    {pairs : List (Expression × Expression)}
    (each : ∀ pair, pair ∈ pairs → ∃ outcome : Except EvaluationError Quantity,
      first pair.1 = outcome.map .quantity ∧ second pair.2 = outcome.map .quantity) (exponent : Quantity) :
    ∃ outcome : Except EvaluationError Quantity,
      foldTower first exponent (pairs.map Prod.fst) = outcome.map some ∧
        foldTower second exponent (pairs.map Prod.snd) = outcome.map some := by
  induction pairs generalizing exponent with
  | nil => exact ⟨.ok exponent, rfl, rfl⟩
  | cons pair rest ih =>
      obtain ⟨⟨outcome, isFirst, isSecond⟩, later⟩ := List.forall_mem_cons.mp each
      rw [List.map_cons, List.map_cons, foldTower, foldTower, isFirst, isSecond]
      cases outcome with
      | error cause => exact ⟨.error cause, rfl, rfl⟩
      | ok base =>
          change ∃ outcome : Except EvaluationError Quantity,
            (base.raise exponent >>= fun power => foldTower first power (rest.map Prod.fst)) = outcome.map some ∧
              (base.raise exponent >>= fun power => foldTower second power (rest.map Prod.snd)) = outcome.map some
          cases base.raise exponent with
          | error cause => exact ⟨.error cause, rfl, rfl⟩
          | ok power => exact ih later power

private theorem evaluateTower_of_each {first second : Expression → Except EvaluationError Expression}
    {pairs : List (Expression × Expression)} (nonempty : pairs ≠ [])
    (each : ∀ pair, pair ∈ pairs → ∃ outcome : Except EvaluationError Quantity,
      first pair.1 = outcome.map .quantity ∧ second pair.2 = outcome.map .quantity) :
    ∃ outcome : Except EvaluationError Quantity,
      evaluateTower first (pairs.map Prod.fst) = outcome.map .quantity ∧
        evaluateTower second (pairs.map Prod.snd) = outcome.map .quantity := by
  unfold evaluateTower
  rw [← List.map_reverse, ← List.map_reverse]
  cases reversed : pairs.reverse with
  | nil => exact absurd (List.reverse_eq_nil_iff.mp reversed) nonempty
  | cons last earlier =>
      have eachReversed : ∀ pair, pair ∈ last :: earlier → ∃ outcome : Except EvaluationError Quantity,
          first pair.1 = outcome.map .quantity ∧ second pair.2 = outcome.map .quantity :=
        fun pair member => each pair (List.mem_reverse.mp (reversed ▸ member))
      obtain ⟨⟨outcome, isFirst, isSecond⟩, others⟩ := List.forall_mem_cons.mp eachReversed
      simp only [List.map_cons]
      rw [isFirst, isSecond]
      cases outcome with
      | error cause => exact ⟨.error cause, rfl, rfl⟩
      | ok exponent =>
          obtain ⟨power, firstPower, secondPower⟩ := foldTower_of_each others exponent
          simp only [Except.map, bind, Except.bind]
          rw [firstPower, secondPower]
          cases power with
          | error cause => exact ⟨.error cause, rfl, rfl⟩
          | ok value => exact ⟨.ok value, rfl, rfl⟩

/-! ### Expressions -/

def ExactPower (workspace : Workspace) (operands : List Expression) : Prop :=
  isExactOutcome ((Expression.tower operands).evaluate workspace) = true

variable {workspace : Workspace}

private theorem isExact_of_within {expression : Expression} (exact : expression.Exact (ExactPower workspace))
    {depth : Nat}
    {value : Quantity} (evaluated : within workspace depth [] expression = .ok (.quantity value)) :
    value.magnitude.isExact = true := by
  induction exact generalizing depth value with
  | quantity isExact =>
      cases depth with
      | zero => cases evaluated
      | succ depth =>
          cases evaluated
          exact isExact
  | @chain precedence operands operators noRaise parts ih =>
      cases depth with
      | zero => cases evaluated
      | succ depth =>
          obtain ⟨amount, rfl⟩ := amount_of_foldChain noRaise
            (fun operand _ result operandEvaluated => within_tidy operandEvaluated)
            (fun operand member _ operandEvaluated => Amount.exists_of_isExact (ih operand member operandEvaluated))
            evaluated
          rfl
  | tower isExact =>
      rw [ExactPower, evaluate_of_quantity evaluated] at isExact
      exact isExact
  | negation part ih =>
      cases depth with
      | zero => cases evaluated
      | succ depth =>
          obtain ⟨positive, operandEvaluated, rfl⟩ := map_negate_eq_quantity
            (fun result isResult => within_tidy isResult) evaluated
          exact (Expression.isExact_neg positive).trans (ih operandEvaluated)

private theorem within_literal {depth : Nat} (deep : 1 ≤ depth) (value : Rat) :
    within workspace depth [] (literal value) = .ok (literal value) := by
  cases depth with
  | zero => cases deep
  | succ depth => rfl

private theorem takeValue_one (value : Rat) :
    takeValue none .multiply (.ofNumber (.exact value)) = .ok (.ofNumber (.exact value)) := by
  change (Amount.mk 1 0).quantity.multiply (Amount.plain value).quantity = _
  rw [Amount.multiply_plain, one_mul]
  rfl

private theorem within_fraction {depth : Nat} (deep : 2 ≤ depth) {n d : Rat} (nonzero : d ≠ 0) :
    within workspace depth [] (chainOf .product [(.multiply, literal n), (.divide, literal d)]) =
      .ok (literal (n / d)) := by
  obtain ⟨inner, rfl⟩ := Nat.exists_eq_add_of_le' deep
  have isLiteral (value : Rat) : within workspace (inner + 1) [] (literal value) = .ok (literal value) := rfl
  have nothing : IsExactSoFar none := fun _ isFront => by cases isFront
  have folded := foldlM_fraction (rfl : Operator.multiply.precedence = .product) nothing nonzero (isLiteral n)
    (isLiteral d)
  rw [takeValue_one] at folded
  exact @foldChain_of_foldlM _ _ (.ok (.ofNumber (.exact (n / d)))) rfl folded

private theorem exists_inner {expression : Expression} {depth : Nat} (deep : expression.height ≤ depth) :
    ∃ inner, depth = inner + 1 := by
  cases depth with
  | zero => cases expression <;> cases deep
  | succ inner => exact ⟨inner, rfl⟩

/-- An operand of a chain is reached within one step less than the chain. -/
theorem height_le_of_mem {precedence : Precedence} {steps : Steps} {depth : Nat}
    (deep : (chainOf precedence steps).height ≤ depth + 1) {operator : Operator} {operand : Expression}
    (member : (operator, operand) ∈ steps) : operand.height ≤ depth :=
  Nat.le_trans (Expression.height_le_heightOfList (List.mem_map.mpr ⟨_, member, rfl⟩)) (Nat.le_of_succ_le_succ deep)

private theorem agrees_of_each {precedence : Precedence} (noPower : precedence ≠ .power) {factors : List Factor}
    (fits : Expression.Fits (ExactPower workspace) precedence factors) {fusedDepth depth : Nat}
    (fusedDeep : (chainOf precedence (fusedSteps factors)).height ≤ fusedDepth + 1)
    (deep : (chainOf precedence (ownSteps factors)).height ≤ depth + 1)
    (each : ∀ operator fused own, Factor.whole operator fused own ∈ factors → fused.height ≤ fusedDepth →
      own.height ≤ depth → ∃ outcome : Except EvaluationError Quantity,
        within workspace fusedDepth [] fused = outcome.map .quantity ∧
          within workspace depth [] own = outcome.map .quantity) :
    ∀ factor, factor ∈ factors →
      Agrees (ExactPower workspace) (within workspace fusedDepth []) (within workspace depth []) factor := by
  intro factor member
  have inFused (operator : Operator) (operand : Expression) (isStep : (operator, operand) ∈ factor.fusedSteps) :
      operand.height ≤ fusedDepth :=
    height_le_of_mem fusedDeep (List.mem_flatMap.mpr ⟨factor, member, isStep⟩)
  have inOwn (operator : Operator) (operand : Expression) (isStep : (operator, operand) ∈ factor.ownSteps) :
      operand.height ≤ depth :=
    height_le_of_mem deep (List.mem_flatMap.mpr ⟨factor, member, isStep⟩)
  cases factor with
  | whole operator fused own =>
      obtain ⟨outcome, isFused, isOwn⟩ := each operator fused own member (inFused operator fused List.mem_cons_self)
        (inOwn operator own List.mem_cons_self)
      refine ⟨fun isRaise => ?_, outcome, isFused, isOwn, fun exact value isValue => ?_⟩
      · rw [← fits.single _ member, Factor.operator, isRaise] at noPower
        exact noPower rfl
      · rw [isValue] at isOwn
        exact isExact_of_within exact isOwn
  | fraction operator n d =>
      obtain ⟨isProduct, nonzero⟩ := fits.fractions operator n d member
      exact ⟨isProduct, nonzero, within_literal (inFused operator _ List.mem_cons_self) _,
        within_literal (inOwn operator _ List.mem_cons_self) n,
        within_literal (inOwn (operator.through .divide) _ (List.mem_cons_of_mem _ List.mem_cons_self)) d⟩

/-- What is alike is evaluated to the same quantity, or fails for the same cause. -/
theorem outcome_of_alike {fused own : Expression} (alike : Alike (ExactPower workspace) fused own)
    {fusedDepth depth : Nat} (fusedDeep : fused.height ≤ fusedDepth) (deep : own.height ≤ depth) :
    ∃ outcome : Except EvaluationError Quantity, within workspace fusedDepth [] fused = outcome.map .quantity ∧
      within workspace depth [] own = outcome.map .quantity := by
  induction alike generalizing fusedDepth depth with
  | quantity value =>
      obtain ⟨fusedInner, rfl⟩ := exists_inner fusedDeep
      obtain ⟨inner, rfl⟩ := exists_inner deep
      exact ⟨.ok value, rfl, rfl⟩
  | @fraction n d nonzero =>
      exact ⟨.ok (.ofNumber (.exact (n / d))), within_literal fusedDeep _, within_fraction deep nonzero⟩
  | @chain precedence noPower factors several fits each ih =>
      obtain ⟨fusedInner, rfl⟩ := exists_inner fusedDeep
      obtain ⟨inner, rfl⟩ := exists_inner deep
      obtain ⟨outcome, fusedFold, ownFold⟩ := foldlM_of_agrees fits.guarded
        (agrees_of_each noPower fits fusedDeep deep fun operator fused own member fusedDeeper deeper =>
          ih operator fused own member fusedDeeper deeper)
        (Or.inl fits.nonempty) fun _ front (isFront : none = some front) => by cases isFront
      obtain ⟨fusedLonger, longer⟩ := length_le_steps factors
      obtain ⟨fusedLeads, leads⟩ := fits.exists_lead
      obtain ⟨fusedSingle, single⟩ := precedence_steps fits
      exact ⟨outcome,
        foldChain_of_foldlM (chainSteps_linksOf (Nat.le_trans several fusedLonger) fusedSingle fusedLeads) fusedFold,
        foldChain_of_foldlM (chainSteps_linksOf (Nat.le_trans several longer) single leads) ownFold⟩
  | @tower pairs nonempty each ih =>
      obtain ⟨fusedInner, rfl⟩ := exists_inner fusedDeep
      obtain ⟨inner, rfl⟩ := exists_inner deep
      refine evaluateTower_of_each nonempty fun pair member => ih pair member ?_ ?_
      · exact Nat.le_trans (Expression.height_le_heightOfList (List.mem_map_of_mem member))
          (Nat.le_of_succ_le_succ fusedDeep)
      · exact Nat.le_trans (Expression.height_le_heightOfList (List.mem_map_of_mem member))
          (Nat.le_of_succ_le_succ deep)
  | negation _ ih =>
      obtain ⟨fusedInner, rfl⟩ := exists_inner fusedDeep
      obtain ⟨inner, rfl⟩ := exists_inner deep
      obtain ⟨outcome, isFused, isOwn⟩ := ih (Nat.le_of_succ_le_succ fusedDeep) (Nat.le_of_succ_le_succ deep)
      refine ⟨outcome.map fun value => -value, ?_, ?_⟩
      · rw [within, isFused]
        cases outcome <;> rfl
      · rw [within, isOwn]
        cases outcome <;> rfl

private theorem height_le_sufficientDepth (workspace : Workspace) (expression : Expression) :
    expression.height ≤ sufficientDepth workspace expression := by
  have stored : expression.height ≤ workspace.height expression := Nat.le_max_left _ _
  have positive : 0 < (workspace.bindings.length + 1) * (workspace.outputs.length + 2) :=
    Nat.mul_pos (Nat.succ_pos _) (Nat.succ_pos _)
  exact Nat.le_trans (Nat.le_succ_of_le stored) (Nat.le_mul_of_pos_left _ positive)

/-- Fractions do not change what is computed. -/
theorem evaluate_of_alike {fused own : Expression} (alike : Alike (ExactPower workspace) fused own) :
    fused.evaluate workspace = own.evaluate workspace := by
  obtain ⟨outcome, isFused, isOwn⟩ := outcome_of_alike alike (height_le_sufficientDepth workspace fused)
    (height_le_sufficientDepth workspace own)
  exact isFused.trans isOwn.symm

end Evaluation

end QuantityCalculator
