import Mathlib.Data.List.Forall2
import QuantityCalculator.Proofs.Evaluation.Depth
import QuantityCalculator.Proofs.Except
import QuantityCalculator.Proofs.Expression.WellFormed

/-!
Evaluations that end in a quantity.

An expression is evaluated to a quantity only if all of its operands are, and then it is what the
quantities of the operands make.  So active variables play no part in such an evaluation.
-/

namespace QuantityCalculator.Evaluation

open Expression (Tidy)

variable {evaluate : Expression → Except EvaluationError Expression}

/-! ### What quantities make -/

def foldValues (known : Option Quantity) :
    List (Operator × Quantity) → Except EvaluationError (Option Quantity)
  | [] => .ok known
  | term :: rest => do
    let next ← term.1.apply (known.getD (term.1.neutral term.2)) term.2
    foldValues (some next) rest

/-! ### Chains -/

/-- What is left over in a chain is not a quantity, and has its sign in place. -/
def LeftOver (folded : Folded) : Prop :=
  ∀ step, step ∈ folded.residual → step.2.value? = none ∧ step.2.Tidy

private theorem mem_residual_of_take {folded next : Folded} {operator : Operator} {operand : Expression}
    (taken : folded.take operator operand = .ok next) {step : Operator × Expression}
    (member : step ∈ next.residual) :
    step ∈ folded.residual ∨ (step = (operator, operand) ∧ operand.value? = none) := by
  have left : operand.value? = none → step ∈ folded.residual ++ [(operator, operand)] →
      step ∈ folded.residual ∨ (step = (operator, operand) ∧ operand.value? = none) := by
    intro open_ inside
    rcases List.mem_append.mp inside with before | last
    · exact Or.inl before
    · exact Or.inr ⟨List.mem_singleton.mp last, open_⟩
  cases operand with
  | quantity value =>
      obtain ⟨known, _, isNext⟩ := bind_eq_ok_iff.mp taken
      cases isNext
      exact Or.inl member
  | _ =>
      cases taken
      exact left rfl member

theorem foldStep_eq_ok {folded next : Folded} {step : Operator × Expression}
    (stepped : foldStep evaluate folded step = .ok next) :
    ∃ operand, evaluate step.2 = .ok operand ∧ folded.take step.1 operand = .ok next :=
  bind_eq_ok_iff.mp stepped

theorem foldlM_cons_eq_ok {folded final : Folded} {step : Operator × Expression}
    {rest : List (Operator × Expression)}
    (all : (step :: rest).foldlM (foldStep evaluate) folded = .ok final) :
    ∃ next, foldStep evaluate folded step = .ok next ∧
      rest.foldlM (foldStep evaluate) next = .ok final := by
  rw [List.foldlM_cons] at all
  exact bind_eq_ok_iff.mp all

/-- What is left over was left over before, or is what an operand has been evaluated to. -/
theorem mem_residual_of_foldlM {steps : List (Operator × Expression)} {folded final : Folded}
    (all : steps.foldlM (foldStep evaluate) folded = .ok final) {step : Operator × Expression}
    (member : step ∈ final.residual) :
    step ∈ folded.residual ∨ ∃ origin, origin ∈ steps ∧ step.1 = origin.1 ∧
      evaluate origin.2 = .ok step.2 ∧ step.2.value? = none := by
  induction steps generalizing folded with
  | nil =>
      cases all
      exact Or.inl member
  | cons first rest ih =>
      obtain ⟨next, stepped, others⟩ := foldlM_cons_eq_ok all
      obtain ⟨operand, evaluated, taken⟩ := foldStep_eq_ok stepped
      rcases ih others with inNext | ⟨origin, inRest, isOrigin⟩
      · rcases mem_residual_of_take taken inNext with before | ⟨rfl, open_⟩
        · exact Or.inl before
        · exact Or.inr ⟨first, List.mem_cons_self, rfl, evaluated, open_⟩
      · exact Or.inr ⟨origin, List.mem_cons_of_mem _ inRest, isOrigin⟩

private theorem foldlM_leftOver {steps : List (Operator × Expression)} {final : Folded}
    (tidy : ∀ step, step ∈ steps → ∀ result, evaluate step.2 = .ok result → result.Tidy)
    (all : steps.foldlM (foldStep evaluate) Folded.start = .ok final) : LeftOver final := by
  intro step member
  rcases mem_residual_of_foldlM all member with before | ⟨origin, inSteps, _, evaluated, open_⟩
  · exact (List.not_mem_nil before).elim
  · exact ⟨open_, tidy origin inSteps step.2 evaluated⟩

/-- If nothing is left over at the end, then each operand has been evaluated to a quantity. -/
theorem values_of_foldlM {steps : List (Operator × Expression)} {folded final : Folded}
    (all : steps.foldlM (foldStep evaluate) folded = .ok final) (nothing : final.residual = []) :
    folded.residual = [] ∧
      ∃ quantities, List.Forall₂ (fun step quantity => evaluate step.2 = .ok (.quantity quantity)) steps
        quantities ∧ foldValues folded.known ((steps.map Prod.fst).zip quantities) = .ok final.known := by
  induction steps generalizing folded with
  | nil =>
      cases all
      exact ⟨nothing, [], .nil, rfl⟩
  | cons step rest ih =>
      obtain ⟨next, stepped, others⟩ := foldlM_cons_eq_ok all
      obtain ⟨operand, evaluated, taken⟩ := foldStep_eq_ok stepped
      obtain ⟨empty, quantities, each, made⟩ := ih others
      have notLeft : next ≠ { folded with residual := folded.residual ++ [(step.1, operand)] } := by
        rintro rfl
        exact absurd empty (by simp)
      cases operand with
      | quantity quantity =>
          obtain ⟨known, applied, isNext⟩ := bind_eq_ok_iff.mp taken
          cases isNext
          exact ⟨empty, quantity :: quantities, .cons evaluated each, bind_eq_ok_iff.mpr ⟨known, applied, made⟩⟩
      | _ => exact absurd (Except.ok.inj taken).symm notLeft

private theorem foldlM_of_values {steps : List (Operator × Expression)} {quantities : List Quantity}
    {known final : Option Quantity}
    (each : List.Forall₂ (fun step quantity => evaluate step.2 = .ok (.quantity quantity)) steps quantities)
    (made : foldValues known ((steps.map Prod.fst).zip quantities) = .ok final) :
    steps.foldlM (foldStep evaluate) { known, residual := [] } = .ok { known := final, residual := [] } := by
  induction each generalizing known with
  | nil =>
      cases made
      rfl
  | @cons step quantity rest later evaluated _ ih =>
      obtain ⟨next, applied, others⟩ := bind_eq_ok_iff.mp made
      have taken : foldStep evaluate { known, residual := [] } step = .ok { known := some next, residual := [] } :=
        bind_eq_ok_iff.mpr ⟨.quantity quantity, evaluated, bind_eq_ok_iff.mpr ⟨next, applied, rfl⟩⟩
      rw [List.foldlM_cons, taken]
      exact ih others

/-- What joins several operands is a chain. -/
theorem eq_of_foldlM_join? {first joined : Expression} {steps : List (Operator × Expression)}
    (all : steps.foldlM (fun left step => left.join? step.1 step.2) first = some joined) :
    (steps = [] ∧ joined = first) ∨
      ∃ precedence operands operators, joined = .chain precedence operands operators := by
  induction steps generalizing first with
  | nil => exact Or.inl ⟨rfl, (Option.some.inj all).symm⟩
  | cons step rest ih =>
      rw [List.foldlM_cons] at all
      obtain ⟨next, stepped, others⟩ := Option.bind_eq_some_iff.mp all
      unfold Expression.join? at stepped
      split at stepped
      · cases stepped
      · rcases ih others with ⟨_, same⟩ | isChain
        · rw [same, ← Option.some.inj stepped]
          exact Or.inr ⟨_, _, _, rfl⟩
        · exact Or.inr isChain

private theorem eq_of_joinAll? {operands : List Expression} {operators : List Operator} {joined : Expression}
    (found : Expression.joinAll? operands operators = some joined) :
    operands = [joined] ∨ ∃ precedence operands operators, joined = .chain precedence operands operators := by
  cases operands with
  | nil => cases found
  | cons first rest =>
      cases operators with
      | nil =>
          cases rest with
          | nil => exact Or.inl (congrArg ([·]) (Option.some.inj found))
          | cons second later => cases found
      | cons operator others =>
          simp only [Expression.joinAll?] at found
          split at found
          · rename_i fits
            have length := of_decide_eq_true (Bool.and_eq_true_iff.mp fits).1
            rcases eq_of_foldlM_join? found with ⟨none, _⟩ | isChain
            · cases rest with
              | nil => cases length
              | cons second later => cases none
            · exact Or.inr isChain
          · cases found

private theorem eq_of_rejoin {operands : List Expression} {operators : List Operator} {joined : Expression}
    (rejoined : rejoin operands operators = .ok joined) :
    operands = [joined] ∨ ∃ precedence operands operators, joined = .chain precedence operands operators := by
  unfold rejoin at rejoined
  split at rejoined
  · rename_i found
    cases rejoined
    exact eq_of_joinAll? found
  · cases rejoined

private theorem expression_eq_quantity {folded : Folded} {quantity : Quantity} (leftOver : LeftOver folded)
    (ended : folded.expression = .ok (.quantity quantity)) :
    folded.residual = [] ∧ folded.known = some quantity := by
  obtain ⟨known, residual⟩ := folded
  cases known with
  | some value =>
      cases residual with
      | nil =>
          cases ended
          exact ⟨rfl, rfl⟩
      | cons step rest =>
          rcases eq_of_rejoin ended with single | ⟨_, _, _, isChain⟩
          · cases single
          · cases isChain
  | none =>
      rcases eq_of_rejoin ended with single | ⟨_, _, _, isChain⟩
      · cases residual with
        | nil => cases single
        | cons step rest =>
            have isQuantity : step.2 = .quantity quantity := (List.cons.inj single).1
            have open_ := (leftOver step List.mem_cons_self).1
            rw [isQuantity] at open_
            cases open_
      · cases isChain

private theorem expression_tidy {folded : Folded} {result : Expression} (leftOver : LeftOver folded)
    (ended : folded.expression = .ok result) : result.Tidy := by
  obtain ⟨known, residual⟩ := folded
  cases known with
  | some value =>
      cases residual with
      | nil =>
          cases ended
          trivial
      | cons step rest =>
          rcases eq_of_rejoin ended with single | ⟨_, _, _, isChain⟩
          · cases single
          · rw [isChain]
            trivial
  | none =>
      rcases eq_of_rejoin ended with single | ⟨_, _, _, isChain⟩
      · cases residual with
        | nil => cases single
        | cons step rest =>
            rw [← (List.cons.inj single).1]
            exact (leftOver step List.mem_cons_self).2
      · rw [isChain]
        trivial

def chainSteps (operators : List Operator) (operands : List Expression) : List (Operator × Expression) :=
  (leading operators :: operators).zip operands

theorem foldChain_eq_ok {operators : List Operator} {operands : List Expression} {result : Expression}
    (folded : foldChain evaluate operators operands = .ok result) :
    ∃ final, (chainSteps operators operands).foldlM (foldStep evaluate) Folded.start = .ok final ∧
      final.expression = .ok result :=
  bind_eq_ok_iff.mp folded

private theorem foldChain_tidy {operators : List Operator} {operands : List Expression} {result : Expression}
    (tidy : ∀ operand, operand ∈ operands → ∀ result, evaluate operand = .ok result → result.Tidy)
    (folded : foldChain evaluate operators operands = .ok result) : result.Tidy := by
  obtain ⟨final, all, ended⟩ := foldChain_eq_ok folded
  have leftOver : LeftOver final :=
    foldlM_leftOver (fun step member => tidy step.2 (List.of_mem_zip member).2) all
  exact expression_tidy leftOver ended

theorem foldChain_eq_quantity_iff {operators : List Operator} {operands : List Expression}
    {quantity : Quantity}
    (tidy : ∀ operand, operand ∈ operands → ∀ result, evaluate operand = .ok result → result.Tidy) :
    foldChain evaluate operators operands = .ok (.quantity quantity) ↔
      ∃ quantities, List.Forall₂ (fun step quantity => evaluate step.2 = .ok (.quantity quantity))
        (chainSteps operators operands) quantities ∧
          foldValues none (((chainSteps operators operands).map Prod.fst).zip quantities) =
            .ok (some quantity) := by
  constructor
  · intro folded
    obtain ⟨final, all, ended⟩ := foldChain_eq_ok folded
    have leftOver : LeftOver final :=
      foldlM_leftOver (fun step member => tidy step.2 (List.of_mem_zip member).2) all
    obtain ⟨nothing, made⟩ := expression_eq_quantity leftOver ended
    obtain ⟨_, quantities, each, total⟩ := values_of_foldlM all nothing
    rw [made] at total
    exact ⟨quantities, each, total⟩
  · rintro ⟨quantities, each, made⟩
    exact bind_eq_ok_iff.mpr ⟨_, foldlM_of_values each made, rfl⟩

/-- A chain is evaluated to a quantity if its operands are, and then it is what these make. -/
theorem foldChain_eq_quantity_iff_operands {operators : List Operator} {operands : List Expression}
    {quantity : Quantity} (count : operands.length = operators.length + 1)
    (tidy : ∀ operand, operand ∈ operands → ∀ result, evaluate operand = .ok result → result.Tidy) :
    foldChain evaluate operators operands = .ok (.quantity quantity) ↔
      ∃ quantities, List.Forall₂ (fun operand quantity => evaluate operand = .ok (.quantity quantity))
        operands quantities ∧
          foldValues none ((leading operators :: operators).zip quantities) = .ok (some quantity) := by
  have fits : (leading operators :: operators).length = operands.length := by
    rw [count, List.length_cons]
  have first : (chainSteps operators operands).map Prod.fst = leading operators :: operators :=
    List.map_fst_zip (Nat.le_of_eq fits)
  have second : (chainSteps operators operands).map Prod.snd = operands :=
    List.map_snd_zip (Nat.le_of_eq fits.symm)
  have eachStep : ∀ quantities, List.Forall₂
      (fun operand quantity => evaluate operand = .ok (.quantity quantity))
        ((chainSteps operators operands).map Prod.snd) quantities ↔
      List.Forall₂ (fun step quantity => evaluate step.2 = .ok (.quantity quantity))
        (chainSteps operators operands) quantities :=
    fun quantities => List.forall₂_map_left_iff
  rw [second] at eachStep
  rw [foldChain_eq_quantity_iff tidy, first]
  exact exists_congr fun quantities => and_congr_left fun _ => (eachStep quantities).symm

/-! ### Towers -/

theorem foldTower_cons_iff {exponent power : Quantity} {operand : Expression} {earlier : List Expression} :
    foldTower evaluate exponent (operand :: earlier) = .ok (some power) ↔
      ∃ base, evaluate operand = .ok (.quantity base) ∧
        ∃ next, base.raise exponent = .ok next ∧ foldTower evaluate next earlier = .ok (some power) := by
  constructor
  · intro made
    obtain ⟨result, evaluated, powered⟩ := bind_eq_ok_iff.mp made
    cases result with
    | quantity base =>
        obtain ⟨next, raised, others⟩ := bind_eq_ok_iff.mp powered
        exact ⟨base, evaluated, next, raised, others⟩
    | _ => cases powered
  · rintro ⟨base, evaluated, next, raised, made⟩
    exact bind_eq_ok_iff.mpr ⟨.quantity base, evaluated, bind_eq_ok_iff.mpr ⟨next, raised, made⟩⟩

theorem foldTower_append_iff {exponent power : Quantity} {earlier : List Expression} {first : Expression} :
    foldTower evaluate exponent (earlier ++ [first]) = .ok (some power) ↔
      ∃ next, foldTower evaluate exponent earlier = .ok (some next) ∧
        ∃ base, evaluate first = .ok (.quantity base) ∧ base.raise next = .ok power := by
  induction earlier generalizing exponent with
  | nil =>
      rw [List.nil_append, foldTower_cons_iff]
      constructor
      · rintro ⟨base, evaluated, next, raised, made⟩
        cases made
        exact ⟨exponent, rfl, base, evaluated, raised⟩
      · rintro ⟨next, made, base, evaluated, raised⟩
        cases made
        exact ⟨base, evaluated, power, raised, rfl⟩
  | cons operand rest ih =>
      rw [List.cons_append, foldTower_cons_iff]
      constructor
      · rintro ⟨base, evaluated, power, raised, made⟩
        obtain ⟨next, later, others⟩ := ih.mp made
        exact ⟨next, foldTower_cons_iff.mpr ⟨base, evaluated, power, raised, later⟩, others⟩
      · rintro ⟨next, later, others⟩
        obtain ⟨base, evaluated, power, raised, made⟩ := foldTower_cons_iff.mp later
        exact ⟨base, evaluated, power, raised, ih.mpr ⟨next, made, others⟩⟩

theorem evaluateTower_eq_quantity_iff {operands earlier : List Expression} {last : Expression}
    (reversed : operands.reverse = last :: earlier) {quantity : Quantity} :
    evaluateTower evaluate operands = .ok (.quantity quantity) ↔
      ∃ exponent, evaluate last = .ok (.quantity exponent) ∧
        foldTower evaluate exponent earlier = .ok (some quantity) := by
  unfold evaluateTower
  rw [reversed]
  constructor
  · intro made
    obtain ⟨result, evaluated, powered⟩ := bind_eq_ok_iff.mp made
    cases result with
    | quantity exponent =>
        obtain ⟨power, folded, isResult⟩ := bind_eq_ok_iff.mp powered
        cases power with
        | none => cases isResult
        | some value =>
            cases isResult
            exact ⟨exponent, evaluated, folded⟩
    | _ => cases powered
  · rintro ⟨exponent, evaluated, folded⟩
    exact bind_eq_ok_iff.mpr ⟨.quantity exponent, evaluated, bind_eq_ok_iff.mpr ⟨some quantity, folded, rfl⟩⟩

theorem evaluateTower_single_iff {operand : Expression} {quantity : Quantity} :
    evaluateTower evaluate [operand] = .ok (.quantity quantity) ↔
      evaluate operand = .ok (.quantity quantity) := by
  rw [evaluateTower_eq_quantity_iff List.reverse_singleton]
  constructor
  · rintro ⟨exponent, evaluated, made⟩
    cases made
    exact evaluated
  · intro evaluated
    exact ⟨quantity, evaluated, rfl⟩

/-- A tower is evaluated to a quantity if its exponent is, and its base. -/
theorem evaluateTower_cons_iff {base : Expression} {rest : List Expression} (nonempty : rest ≠ [])
    {quantity : Quantity} :
    evaluateTower evaluate (base :: rest) = .ok (.quantity quantity) ↔
      ∃ exponent, evaluateTower evaluate rest = .ok (.quantity exponent) ∧
        ∃ first, evaluate base = .ok (.quantity first) ∧ first.raise exponent = .ok quantity := by
  cases reversed : rest.reverse with
  | nil => exact absurd (List.reverse_eq_nil_iff.mp reversed) nonempty
  | cons last earlier =>
      have whole : (base :: rest).reverse = last :: (earlier ++ [base]) := by
        rw [List.reverse_cons, reversed, List.cons_append]
      rw [evaluateTower_eq_quantity_iff whole]
      constructor
      · rintro ⟨power, evaluated, made⟩
        obtain ⟨exponent, folded, first, evaluatedBase, raised⟩ := foldTower_append_iff.mp made
        exact ⟨exponent, (evaluateTower_eq_quantity_iff reversed).mpr ⟨power, evaluated, folded⟩, first,
          evaluatedBase, raised⟩
      · rintro ⟨exponent, exponentMade, first, evaluatedBase, raised⟩
        obtain ⟨power, evaluated, folded⟩ := (evaluateTower_eq_quantity_iff reversed).mp exponentMade
        exact ⟨power, evaluated, foldTower_append_iff.mpr ⟨exponent, folded, first, evaluatedBase, raised⟩⟩

theorem evaluateTower_nil_ne_quantity {quantity : Quantity} :
    evaluateTower evaluate [] ≠ .ok (.quantity quantity) :=
  fun made => by cases made

/-- A tower is evaluated to a quantity or left as it is. -/
theorem evaluateTower_eq_ok {operands : List Expression} {result : Expression}
    (made : evaluateTower evaluate operands = .ok result) :
    (∃ quantity, result = .quantity quantity) ∨ result = .tower operands := by
  unfold evaluateTower at made
  split at made
  · cases made
    exact Or.inr rfl
  · obtain ⟨exponent, _, powered⟩ := bind_eq_ok_iff.mp made
    cases exponent with
    | quantity value =>
        obtain ⟨power, _, isResult⟩ := bind_eq_ok_iff.mp powered
        cases power with
        | none =>
            cases isResult
            exact Or.inr rfl
        | some quantity =>
            cases isResult
            exact Or.inl ⟨quantity, rfl⟩
    | _ =>
        cases powered
        exact Or.inr rfl

private theorem evaluateTower_tidy {operands : List Expression} {result : Expression}
    (made : evaluateTower evaluate operands = .ok result) : result.Tidy := by
  rcases evaluateTower_eq_ok made with ⟨quantity, rfl⟩ | rfl <;> trivial

/-! ### Expressions -/

theorem map_negate_eq_quantity {outcome : Except EvaluationError Expression} {quantity : Quantity}
    (tidy : ∀ result, outcome = .ok result → result.Tidy)
    (negated : outcome.map Expression.negate = .ok (.quantity quantity)) :
    ∃ value, outcome = .ok (.quantity value) ∧ quantity = -value := by
  obtain ⟨result, rfl, isQuantity⟩ := map_eq_ok_iff.mp negated
  cases result with
  | quantity value =>
      cases isQuantity
      exact ⟨value, rfl, rfl⟩
  | chain precedence operands operators => cases operands <;> cases isQuantity
  | negation operand =>
      have untidy := tidy _ rfl
      have same : operand = .quantity quantity := isQuantity
      rw [same] at untidy
      exact untidy.elim
  | _ => cases isQuantity

theorem within_tidy {workspace : Workspace} {depth : Nat} {active : List String}
    {expression result : Expression} (evaluated : within workspace depth active expression = .ok result) :
    result.Tidy := by
  induction depth generalizing active expression result with
  | zero => cases evaluated
  | succ depth ih =>
      cases expression with
      | quantity value =>
          cases evaluated
          trivial
      | var name =>
          simp only [within] at evaluated
          split at evaluated
          · cases evaluated
            trivial
          · split at evaluated
            · cases evaluated
              trivial
            · exact ih evaluated
      | output index =>
          simp only [within] at evaluated
          split at evaluated
          · cases evaluated
            trivial
          · exact ih evaluated
      | chain precedence operands operators =>
          exact foldChain_tidy (fun operand _ result operandEvaluated => ih operandEvaluated) evaluated
      | tower operands => exact evaluateTower_tidy evaluated
      | negation operand =>
          obtain ⟨inner, operandEvaluated, rfl⟩ := map_eq_ok_iff.mp evaluated
          exact Expression.negate_tidy (ih operandEvaluated)

private theorem exists_quantity_of_mem {operands : List Expression} {quantities : List Quantity}
    (each : List.Forall₂ (fun operand quantity => evaluate operand = .ok (.quantity quantity)) operands
      quantities) {operand : Expression} (member : operand ∈ operands) :
    ∃ value, evaluate operand = .ok (.quantity value) := by
  induction each with
  | nil => cases member
  | @cons first value rest later firstEvaluated _ ih =>
      rcases List.mem_cons.mp member with same | inRest
      · rw [same]
        exact ⟨value, firstEvaluated⟩
      · exact ih inRest

/-- Of what is evaluated to a quantity, each operand is. -/
theorem exists_quantity_of_part {workspace : Workspace} {depth : Nat} {active : List String}
    {expression : Expression} {quantity : Quantity} (wellFormed : expression.WellFormed)
    (evaluated : within workspace (depth + 1) active expression = .ok (.quantity quantity)) :
    ∀ operand, operand ∈ expression.parts →
      ∃ value, within workspace depth active operand = .ok (.quantity value) := by
  cases wellFormed with
  | @chain precedence operands operators noPower single count _ parts =>
      obtain ⟨quantities, each, _⟩ := (foldChain_eq_quantity_iff_operands count
        fun operand _ result operandEvaluated => within_tidy operandEvaluated).mp evaluated
      exact fun operand member => exists_quantity_of_mem each member
  | @tower operands isAtom parts =>
      change evaluateTower (within workspace depth active) operands = _ at evaluated
      change ∀ operand, operand ∈ operands → _
      clear parts isAtom
      induction operands generalizing quantity with
      | nil => exact fun operand member => by cases member
      | cons base rest ih =>
          intro operand member
          by_cases empty : rest = []
          · subst empty
            rw [List.mem_singleton.mp member]
            exact ⟨quantity, evaluateTower_single_iff.mp evaluated⟩
          · obtain ⟨exponent, exponentMade, first, baseEvaluated, _⟩ :=
              (evaluateTower_cons_iff empty).mp evaluated
            rcases List.mem_cons.mp member with same | inRest
            · rw [same]
              exact ⟨first, baseEvaluated⟩
            · exact ih exponentMade operand inRest
  | @negation operand _ part =>
      intro inner member
      obtain ⟨value, operandEvaluated, _⟩ :=
        map_negate_eq_quantity (fun result isResult => within_tidy isResult) evaluated
      rw [List.mem_singleton.mp member]
      exact ⟨value, operandEvaluated⟩
  | _ => exact fun operand member => by cases member

/-! ### Operands that are evaluated to the same -/

section

variable {other : Expression → Except EvaluationError Expression} {operands : List Expression} {quantity : Quantity}

theorem forall₂_of_mem {α β : Type} {before after : α → β → Prop} {xs : List α} {ys : List β}
    (related : List.Forall₂ before xs ys) (implies : ∀ x, x ∈ xs → ∀ y, before x y → after x y) :
    List.Forall₂ after xs ys := by
  induction related with
  | nil => exact .nil
  | @cons x y _ _ holds _ ih =>
      exact .cons (implies x List.mem_cons_self y holds)
        (ih fun later member => implies later (List.mem_cons_of_mem _ member))

theorem foldChain_eq_quantity_of_imp {operators : List Operator}
    (tidy : ∀ operand, operand ∈ operands → ∀ result, evaluate operand = .ok result → result.Tidy)
    (otherTidy : ∀ operand, operand ∈ operands → ∀ result, other operand = .ok result → result.Tidy)
    (imp : ∀ operand, operand ∈ operands → ∀ value, evaluate operand = .ok (.quantity value) →
      other operand = .ok (.quantity value))
    (folded : foldChain evaluate operators operands = .ok (.quantity quantity)) :
    foldChain other operators operands = .ok (.quantity quantity) := by
  obtain ⟨quantities, each, made⟩ := (foldChain_eq_quantity_iff tidy).mp folded
  refine (foldChain_eq_quantity_iff otherTidy).mpr ⟨quantities, ?_, made⟩
  exact forall₂_of_mem each fun step member value evaluated =>
    imp step.2 (List.of_mem_zip member).2 value evaluated

theorem evaluateTower_eq_quantity_of_imp
    (imp : ∀ operand, operand ∈ operands → ∀ value, evaluate operand = .ok (.quantity value) →
      other operand = .ok (.quantity value))
    (made : evaluateTower evaluate operands = .ok (.quantity quantity)) :
    evaluateTower other operands = .ok (.quantity quantity) := by
  induction operands generalizing quantity with
  | nil => exact absurd made evaluateTower_nil_ne_quantity
  | cons base rest ih =>
      by_cases empty : rest = []
      · subst empty
        exact evaluateTower_single_iff.mpr
          (imp base List.mem_cons_self quantity (evaluateTower_single_iff.mp made))
      · obtain ⟨exponent, exponentMade, value, baseEvaluated, raised⟩ := (evaluateTower_cons_iff empty).mp made
        exact (evaluateTower_cons_iff empty).mpr
          ⟨exponent, ih (fun operand member => imp operand (List.mem_cons_of_mem _ member)) exponentMade,
            value, imp base List.mem_cons_self value baseEvaluated, raised⟩

end

/-! ### Evaluations that find the same -/

/-- Whatever an evaluation finds in the first workspace, another one finds in the second, where a relation holds
between the active variables of both and the expression, and goes on to hold for all that is evaluated next. -/
structure Simulates (related : List String → List String → Expression → Prop) (first second : Workspace) :
    Prop where
  part : ∀ {active others expression operand}, related active others expression →
    operand ∈ Expression.parts expression → related active others operand
  var : ∀ {active others name bound}, related active others (.var name) → name ∉ active →
    first.bindings.find? name = some bound →
      name ∉ others ∧ second.bindings.find? name = some bound ∧
        related (name :: active) (name :: others) bound
  output : ∀ {active others index stored}, related active others (.output index) →
    first.output? index = some stored →
      second.output? index = some stored ∧ related active others stored

/-- A quantity in the first workspace is the same quantity in the second one. -/
theorem within_eq_quantity_of_simulates {related : List String → List String → Expression → Prop}
    {first second : Workspace} (simulates : Simulates related first second) {depth : Nat}
    {active others : List String} {expression : Expression} {quantity : Quantity}
    (isRelated : related active others expression)
    (evaluated : within first depth active expression = .ok (.quantity quantity)) :
    within second depth others expression = .ok (.quantity quantity) := by
  induction depth generalizing active others expression quantity with
  | zero => cases evaluated
  | succ depth ih =>
      have tidy : ∀ workspace active operand result, within workspace depth active operand = .ok result →
          result.Tidy := fun _ _ _ _ operandEvaluated => within_tidy operandEvaluated
      have each : ∀ operand, operand ∈ expression.parts → ∀ value,
          within first depth active operand = .ok (.quantity value) →
            within second depth others operand = .ok (.quantity value) :=
        fun operand member value => ih (simulates.part isRelated member)
      cases expression with
      | quantity value => exact evaluated
      | var name =>
          simp only [within] at evaluated ⊢
          split at evaluated
          · cases evaluated
          · rename_i inactive
            have notMember : name ∉ active := fun member => inactive (List.elem_iff.mpr member)
            cases found : first.bindings.find? name with
            | none =>
                rw [found] at evaluated
                cases evaluated
            | some bound =>
                obtain ⟨notOther, foundToo, onward⟩ := simulates.var isRelated notMember found
                rw [found] at evaluated
                rw [if_neg (fun isOther => notOther (List.elem_iff.mp isOther)), foundToo]
                exact ih onward evaluated
      | output index =>
          simp only [within] at evaluated ⊢
          cases found : first.output? index with
          | none =>
              rw [found] at evaluated
              cases evaluated
          | some stored =>
              obtain ⟨foundToo, onward⟩ := simulates.output isRelated found
              rw [found] at evaluated
              rw [foundToo]
              exact ih onward evaluated
      | chain precedence operands operators =>
          exact foldChain_eq_quantity_of_imp (fun operand _ => tidy first active operand)
            (fun operand _ => tidy second others operand) each evaluated
      | tower operands => exact evaluateTower_eq_quantity_of_imp each evaluated
      | negation operand =>
          obtain ⟨value, operandEvaluated, rfl⟩ := map_negate_eq_quantity (tidy first active operand) evaluated
          change (within second depth others operand).map Expression.negate = _
          rw [each operand List.mem_cons_self value operandEvaluated]
          rfl

/-- A quantity does not depend on which variables are left as they are, as long as no more of them are. -/
theorem within_eq_quantity_of_subset {workspace : Workspace} {depth : Nat} {active fewer : List String}
    {expression : Expression} {quantity : Quantity} (subset : fewer ⊆ active)
    (evaluated : within workspace depth active expression = .ok (.quantity quantity)) :
    within workspace depth fewer expression = .ok (.quantity quantity) := by
  have simulates : Simulates (fun active fewer _ => fewer ⊆ active) workspace workspace :=
    ⟨fun subset _ => subset,
      fun subset inactive found => ⟨fun member => inactive (subset member), found, List.cons_subset_cons _ subset⟩,
      fun subset found => ⟨found, subset⟩⟩
  exact within_eq_quantity_of_simulates simulates subset evaluated

end QuantityCalculator.Evaluation
