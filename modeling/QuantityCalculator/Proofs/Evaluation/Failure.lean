import QuantityCalculator.Proofs.Evaluation.References

/-!
Failures that no arithmetic causes.

Going on forever and a chain that does not fit together are failures of an evaluation itself: no operation on
quantities gives them.  Well-formed expressions in a well-formed workspace make chains that fit together.
-/

namespace QuantityCalculator

/-- Causes that lie in what is evaluated, not in its quantities. -/
def EvaluationError.IsStructural : EvaluationError → Prop
  | .endlessReference => True
  | .brokenChain => True
  | _ => False

theorem EvaluationError.endlessReference_isStructural : EvaluationError.endlessReference.IsStructural :=
  trivial

theorem EvaluationError.brokenChain_isStructural : EvaluationError.brokenChain.IsStructural :=
  trivial

open EvaluationError (brokenChain_isStructural)

namespace Evaluation

def Avoids {α : Type} (cause : EvaluationError) (outcome : Except EvaluationError α) : Prop :=
  outcome ≠ .error cause

variable {cause : EvaluationError}

namespace Avoids

variable {α β γ : Type}

theorem ok (value : α) : Avoids cause (.ok value) :=
  fun fails => by cases fails

theorem error (structural : cause.IsStructural) {other : EvaluationError} (ordinary : ¬other.IsStructural) :
    Avoids (α := α) cause (.error other) := by
  intro fails
  rw [Except.error.inj fails] at ordinary
  exact ordinary structural

theorem bind {outcome : Except EvaluationError α} {next : α → Except EvaluationError β}
    (first : Avoids cause outcome) (second : ∀ value, Avoids cause (next value)) :
    Avoids cause (outcome >>= next) := by
  cases outcome with
  | error other => exact fun fails => first (congrArg Except.error (Except.error.inj fails))
  | ok value => exact second value

theorem map {outcome : Except EvaluationError α} (avoids : Avoids cause outcome) (f : α → β) :
    Avoids cause (outcome.map f) := by
  cases outcome with
  | error other => exact fun fails => avoids (congrArg Except.error (Except.error.inj fails))
  | ok value => exact ok _

theorem foldlM {step : β → γ → Except EvaluationError β} (steps : List γ)
    (each : ∀ item, item ∈ steps → ∀ value, Avoids cause (step value item)) (start : β) :
    Avoids cause (steps.foldlM step start) := by
  induction steps generalizing start with
  | nil => exact ok start
  | cons item rest ih =>
      rw [List.foldlM_cons]
      exact bind (each item List.mem_cons_self start)
        (ih fun later member => each later (List.mem_cons_of_mem _ member))

theorem mapM {f : α → Except EvaluationError β} {items : List α}
    (each : ∀ item, item ∈ items → Avoids cause (f item)) : Avoids cause (items.mapM f) := by
  induction items with
  | nil => exact ok []
  | cons item rest ih =>
      rw [List.mapM_cons]
      exact (each item List.mem_cons_self).bind fun _ =>
        (ih fun later member => each later (List.mem_cons_of_mem _ member)).bind fun _ => ok _

end Avoids

/-! ### Arithmetic -/

theorem divide_avoids (structural : cause.IsStructural) (left right : Number) :
    Avoids cause (left.divide right) := by
  unfold Number.divide
  split
  · exact .error structural id
  · split <;> exact .ok _

private theorem raise_avoids (structural : cause.IsStructural) (base power : Number) :
    Avoids cause (base.raise power) := by
  unfold Number.raise Number.raiseReal
  split
  · exact .ok _
  · split
    · exact .error structural id
    · split
      · exact .ok _
      · split
        · exact .error structural id
        · dsimp only
          split
          · exact .ok _
          · exact .error structural id

private theorem inRange_avoids (structural : cause.IsStructural) (dimension? : Option Dimension) :
    Avoids cause (Measure.inRange dimension?) := by
  cases dimension? with
  | none => exact .error structural id
  | some dimension => exact .ok dimension

private theorem raiseMeasure_avoids (structural : cause.IsStructural) (measure : Measure) (power : Number) :
    Avoids cause (measure.raise power) := by
  unfold Measure.raise
  split
  · exact .ok _
  · split
    · exact .error structural id
    · split
      · exact .error structural id
      · split
        · exact .error structural id
        · exact (inRange_avoids structural _).bind fun _ => (raise_avoids structural _ _).bind fun _ => .ok _

private theorem apply_avoids (structural : cause.IsStructural) (operator : Operator) (left right : Quantity) :
    Avoids cause (operator.apply left right) := by
  cases operator with
  | add =>
      change Avoids cause (Quantity.add left right)
      unfold Quantity.add
      split
      · exact .ok _
      · exact .error structural id
  | subtract =>
      change Avoids cause (Quantity.subtract left right)
      unfold Quantity.subtract
      split
      · exact .ok _
      · exact .error structural id
  | multiply => exact ((inRange_avoids structural _).bind fun _ => .ok _).bind fun _ => .ok _
  | divide =>
      exact (divide_avoids structural _ _).bind fun _ =>
        ((inRange_avoids structural _).bind fun _ =>
          (divide_avoids structural _ _).bind fun _ => .ok _).bind fun _ => .ok _
  | raise =>
      change Avoids cause (Quantity.raise left right)
      unfold Quantity.raise
      split
      · exact (raiseMeasure_avoids structural _ _).bind fun _ =>
          (raise_avoids structural _ _).bind fun _ => .ok _
      · exact .error structural id

/-! ### Expressions -/

variable {evaluate : Expression → Except EvaluationError Expression}

private theorem take_avoids (structural : cause.IsStructural) (folded : Folded) (operator : Operator)
    (operand : Expression) : Avoids cause (folded.take operator operand) := by
  cases operand with
  | quantity value => exact (apply_avoids structural _ _ _).bind fun _ => .ok _
  | _ => exact .ok _

/-- The failures of a chain are those of its operands, and of what is left over. -/
theorem foldChain_avoids (structural : cause.IsStructural) {operators : List Operator}
    {operands : List Expression} (each : ∀ operand, operand ∈ operands → Avoids cause (evaluate operand))
    (ends : ∀ final, (chainSteps operators operands).foldlM (foldStep evaluate) Folded.start = .ok final →
      Avoids cause final.expression) : Avoids cause (foldChain evaluate operators operands) := by
  have all : Avoids cause ((chainSteps operators operands).foldlM (foldStep evaluate) Folded.start) :=
    .foldlM _ (fun step member folded =>
      (each step.2 (List.of_mem_zip member).2).bind (take_avoids structural folded step.1)) _
  change Avoids cause ((chainSteps operators operands).foldlM (foldStep evaluate) Folded.start >>= _)
  cases folded : (chainSteps operators operands).foldlM (foldStep evaluate) Folded.start with
  | error other =>
      rw [folded] at all
      exact fun fails => all (congrArg Except.error (Except.error.inj fails))
  | ok final => exact ends final folded

private theorem foldTower_avoids (structural : cause.IsStructural) {exponent : Quantity} {operands : List Expression}
    (each : ∀ operand, operand ∈ operands → Avoids cause (evaluate operand)) :
    Avoids cause (foldTower evaluate exponent operands) := by
  induction operands generalizing exponent with
  | nil => exact .ok _
  | cons operand earlier ih =>
      unfold foldTower
      refine (each operand List.mem_cons_self).bind fun value => ?_
      cases value with
      | quantity base =>
          exact (apply_avoids structural .raise base exponent).bind fun power =>
            ih fun other member => each other (List.mem_cons_of_mem _ member)
      | _ => exact .ok _

theorem evaluateTower_avoids (structural : cause.IsStructural) {operands : List Expression}
    (each : ∀ operand, operand ∈ operands → Avoids cause (evaluate operand)) :
    Avoids cause (evaluateTower evaluate operands) := by
  have eachReversed : ∀ operand, operand ∈ operands.reverse → Avoids cause (evaluate operand) :=
    fun operand member => each operand (List.mem_reverse.mp member)
  unfold evaluateTower
  cases reversed : operands.reverse with
  | nil => exact .ok _
  | cons last earlier =>
      rw [reversed] at eachReversed
      refine (eachReversed last List.mem_cons_self).bind fun value => ?_
      cases value with
      | quantity exponent =>
          refine Avoids.bind (foldTower_avoids structural fun operand member =>
            eachReversed operand (List.mem_cons_of_mem _ member)) fun power => ?_
          cases power <;> exact .ok _
      | _ => exact .ok _

/-! ### Chains that fit together -/

private theorem rejoin_unbroken {precedence : Precedence} {first : Expression} {rest : List Expression}
    {operators : List Operator} (noPower : precedence ≠ .power)
    (single : ∀ operator, operator ∈ operators → operator.precedence = precedence)
    (count : rest.length = operators.length) (firstWellFormed : first.WellFormed)
    (parts : ∀ operand, operand ∈ rest → operand.WellFormed) :
    Avoids .brokenChain (rejoin (first :: rest) operators) := by
  unfold rejoin
  rw [Expression.joinAll?_eq_some noPower single count firstWellFormed parts]
  exact .ok _

/-- What is left over of a chain with at least one operand can be joined again: there is a quantity, or the
operands left over are not none. -/
theorem expression_unbroken {precedence : Precedence} {folded : Folded} (noPower : precedence ≠ .power)
    (single : ∀ step, step ∈ folded.residual → step.1.precedence = precedence)
    (parts : ∀ step, step ∈ folded.residual → step.2.WellFormed)
    (something : folded.known = none → folded.residual ≠ []) : Avoids .brokenChain folded.expression := by
  obtain ⟨known, residual⟩ := folded
  have operatorsSingle : ∀ operator, operator ∈ residual.map Prod.fst → operator.precedence = precedence := by
    intro operator member
    obtain ⟨step, inResidual, rfl⟩ := List.mem_map.mp member
    exact single step inResidual
  have operandsWellFormed : ∀ operand, operand ∈ residual.map Prod.snd → operand.WellFormed := by
    intro operand member
    obtain ⟨step, inResidual, rfl⟩ := List.mem_map.mp member
    exact parts step inResidual
  cases known with
  | some value =>
      cases residual with
      | nil => exact .ok _
      | cons step rest =>
          exact rejoin_unbroken noPower operatorsSingle (by simp) (.quantity value trivial) operandsWellFormed
  | none =>
      cases residual with
      | nil => exact absurd rfl (something rfl)
      | cons step rest =>
          exact rejoin_unbroken noPower
            (fun operator member => operatorsSingle operator (List.mem_cons_of_mem _ member)) (by simp)
            (operandsWellFormed step.2 List.mem_cons_self)
            fun operand member => operandsWellFormed operand (List.mem_cons_of_mem _ member)

private theorem something_of_take {folded next : Folded} {operator : Operator} {operand : Expression}
    (taken : folded.take operator operand = .ok next) : next.known = none → next.residual ≠ [] := by
  intro unknown
  cases operand with
  | quantity value =>
      change (operator.apply (folded.known.getD (operator.neutral value)) value >>= _) = _ at taken
      cases applied : operator.apply (folded.known.getD (operator.neutral value)) value with
      | error other =>
          rw [applied] at taken
          cases taken
      | ok known =>
          rw [applied] at taken
          cases taken
          cases unknown
  | _ =>
      cases taken
      simp

private theorem something_of_foldlM {steps : List (Operator × Expression)} {folded final : Folded}
    (something : folded.known = none → folded.residual ≠ [])
    (all : steps.foldlM (foldStep evaluate) folded = .ok final) : final.known = none → final.residual ≠ [] := by
  induction steps generalizing folded with
  | nil =>
      cases all
      exact something
  | cons step rest ih =>
      obtain ⟨next, stepped, others⟩ := foldlM_cons_eq_ok all
      obtain ⟨operand, _, taken⟩ := foldStep_eq_ok stepped
      exact ih (something_of_take taken) others

private theorem foldChain_unbroken {precedence : Precedence} {operators : List Operator} {operands : List Expression}
    (noPower : precedence ≠ .power)
    (single : ∀ operator, operator ∈ operators → operator.precedence = precedence) (nonempty : operands ≠ [])
    (each : ∀ operand, operand ∈ operands → Avoids .brokenChain (evaluate operand) ∧
      ∀ result, evaluate operand = .ok result → result.WellFormed) :
    Avoids .brokenChain (foldChain evaluate operators operands) := by
  refine foldChain_avoids brokenChain_isStructural (fun operand member => (each operand member).1) fun final all => ?_
  obtain ⟨leadingNoPower, allSingle⟩ := leading_single noPower single
  have origins : ∀ step, step ∈ final.residual →
      step.1.precedence = (leading operators).precedence ∧ step.2.WellFormed := by
    intro step member
    rcases mem_residual_of_foldlM all member with before | ⟨origin, inSteps, isOperator, evaluated, _⟩
    · exact (List.not_mem_nil before).elim
    · obtain ⟨inOperators, inOperands⟩ := List.of_mem_zip inSteps
      rw [isOperator]
      exact ⟨allSingle origin.1 inOperators, (each origin.2 inOperands).2 step.2 evaluated⟩
  refine expression_unbroken leadingNoPower (fun step member => (origins step member).1)
    (fun step member => (origins step member).2) ?_
  cases operands with
  | nil => exact absurd rfl nonempty
  | cons first rest =>
      -- the start has neither a quantity nor operands left over, so the first step is taken by hand
      obtain ⟨next, stepped, others⟩ := foldlM_cons_eq_ok all
      obtain ⟨operand, _, taken⟩ := foldStep_eq_ok stepped
      exact something_of_foldlM (something_of_take taken) others

/-- The operands that an evaluation joins always fit together. -/
theorem within_unbroken {workspace : Workspace}
    (bindings : ∀ name bound, workspace.bindings.find? name = some bound → bound.WellFormed)
    (outputs : ∀ index stored, workspace.output? index = some stored → stored.WellFormed) (depth : Nat)
    (active : List String) {expression : Expression} (wellFormed : expression.WellFormed) :
    Avoids .brokenChain (within workspace depth active expression) := by
  induction depth generalizing active expression with
  | zero => exact fun fails => by cases fails
  | succ depth ih =>
      cases wellFormed with
      | quantity value => exact .ok _
      | var name _ =>
          simp only [within]
          split
          · exact .ok _
          · split
            · exact .ok _
            · rename_i bound found
              exact ih _ (bindings name bound found)
      | output index _ =>
          simp only [within]
          split
          · exact .ok _
          · rename_i stored found
            exact ih _ (outputs index stored found)
      | chain noPower single count _ parts =>
          refine foldChain_unbroken noPower single ?_ fun operand member =>
            ⟨ih active (parts operand member), fun result evaluated =>
              within_formed (Keeps.all workspace fun _ => trivial) bindings outputs (fun _ _ => id) (parts operand member)
                evaluated⟩
          rintro rfl
          cases count
      | tower _ parts =>
          exact evaluateTower_avoids brokenChain_isStructural fun operand member =>
            ih active (parts trivial operand member)
      | negation _ part => exact (ih active part).map Expression.negate

end Evaluation

end QuantityCalculator
