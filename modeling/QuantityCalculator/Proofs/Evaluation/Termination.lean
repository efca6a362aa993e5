import QuantityCalculator.Proofs.Evaluation.Exact
import QuantityCalculator.Proofs.Evaluation.Failure

/-!
Evaluations that come to an end.

If stored results refer to earlier results only, each expression that is evaluated for another one has fewer
variables left to enter, refers to earlier results, or is a part of it.  So the evaluation ends, even if
variables refer to one another in a circle.
-/

namespace QuantityCalculator

namespace Expression

private theorem sizeOf_part_lt {expression operand : Expression} (member : operand ∈ expression.parts) :
    sizeOf operand < sizeOf expression := by
  cases expression with
  | chain precedence operands operators =>
      have smaller : sizeOf operand < sizeOf operands := List.sizeOf_lt_of_mem member
      rw [chain.sizeOf_spec]
      omega
  | tower operands =>
      have smaller : sizeOf operand < sizeOf operands := List.sizeOf_lt_of_mem member
      rw [tower.sizeOf_spec]
      omega
  | negation inner =>
      rw [negation.sizeOf_spec, List.mem_singleton.mp member]
      omega
  | _ => cases member

end Expression

open Expression (RefersBelow)
open EvaluationError (endlessReference_isStructural)

namespace Evaluation

variable {workspace : Workspace}

/-! ### Chains of calls -/

/-- There is no endless sequence of expressions each of which is evaluated for the one before it. -/
def Terminates (workspace : Workspace) (expression : Expression) : Prop :=
  Acc (fun called caller => Calls workspace caller called) ([], expression)

/-- What becomes less from call to call: the variables that can be entered, the limit of references, and the
expression itself. -/
noncomputable def weight (workspace : Workspace) (limit : Nat) (caller : List String × Expression) :
    Nat × Nat × Nat :=
  (unentered workspace caller.1, limit, sizeOf caller.2)

/-- Entering a variable leaves fewer variables to enter, and following a reference leads below its index. -/
theorem weight_lt (grounded : workspace.Grounded) {limit : Nat} {caller called : List String × Expression}
    (built : caller.2.Built (RefersBelow limit)) (calls : Calls workspace caller called) :
    ∃ lower, called.2.Built (RefersBelow lower) ∧
      Prod.Lex (· < ·) (Prod.Lex (· < ·) (· < ·)) (weight workspace lower called)
        (weight workspace limit caller) := by
  cases calls with
  | bound inactive found =>
      exact ⟨workspace.outputs.length + 1, grounded.bindings _ (Bindings.mem_of_find? found),
        .left _ _ (unentered_lt inactive found)⟩
  | @stored _ index _ found =>
      cases built with
      | output _ below => exact ⟨index, grounded.outputs index _ found, .right _ (.left _ _ below.2)⟩
  | part member => exact ⟨limit, built.part trivial member, .right _ (.right _ (Expression.sizeOf_part_lt member))⟩
  | @exponent _ base rest _ =>
      -- the exponent is no part of the tower, but smaller than it
      cases built with
      | tower _ parts =>
          refine ⟨limit, .tower trivial fun _ operand member => parts trivial operand (List.mem_cons_of_mem _ member),
            .right _ (.right _ ?_)⟩
          rw [Expression.tower.sizeOf_spec, Expression.tower.sizeOf_spec, List.cons.sizeOf_spec]
          omega

private theorem acc_calls (grounded : workspace.Grounded) (limit : Nat) (caller : List String × Expression)
    (built : caller.2.Built (RefersBelow limit)) :
    Acc (fun called caller => Calls workspace caller called) caller := by
  apply Acc.intro
  intro called calls
  obtain ⟨lower, calledBuilt, less⟩ := weight_lt grounded built calls
  exact acc_calls grounded lower called calledBuilt
termination_by weight workspace limit caller
decreasing_by exact less

theorem terminates_of_grounded (grounded : workspace.Grounded) {limit : Nat} {expression : Expression}
    (built : expression.Built (RefersBelow limit)) : Terminates workspace expression :=
  acc_calls grounded limit ([], expression) built

/-! ### Outcomes that were not cut short -/

/-- An outcome other than that of going on forever. -/
def Settled {α : Type} (outcome : Except EvaluationError α) : Prop :=
  outcome ≠ .error .endlessReference

private theorem expression_settled (folded : Folded) : Settled folded.expression := by
  have joined : ∀ operands operators, Settled (rejoin operands operators) := by
    intro operands operators
    unfold rejoin
    split
    · exact Avoids.ok _
    · exact fun endless => by cases endless
  unfold Folded.expression
  dsimp only
  split
  · split
    · exact Avoids.ok _
    · exact joined _ _
  · exact joined _ _

private theorem settled_of_exists {active : List String} {expression : Expression}
    (settled : ∃ depth, Settled (within workspace depth active expression)) :
    ∃ depth, ∀ deeper, depth ≤ deeper → Settled (within workspace deeper active expression) := by
  obtain ⟨depth, atDepth⟩ := settled
  refine ⟨depth, fun deeper le => ?_⟩
  rw [within_eq_of_le workspace le atDepth]
  exact atDepth

/-- Without an endless sequence of calls, some depth is enough. -/
theorem exists_depth_settled {caller : List String × Expression}
    (ends : Acc (fun called caller => Calls workspace caller called) caller) :
    ∃ depth, Settled (within workspace depth caller.1 caller.2) := by
  -- the calls are those of the expression, and each of them has a depth that is enough
  induction ends with
  | intro caller _ ih =>
      obtain ⟨active, expression⟩ := caller
      have parts := exists_depth_forall expression.parts fun operand member =>
        settled_of_exists (ih (active, operand) (.part member))
      cases expression with
      | quantity value => exact ⟨1, Avoids.ok _⟩
      | var name =>
          by_cases isActive : active.contains name = true
          · refine ⟨1, ?_⟩
            simp only [within, if_pos isActive]
            exact Avoids.ok _
          · cases found : workspace.bindings.find? name with
            | none =>
                refine ⟨1, ?_⟩
                simp only [within, if_neg isActive, found]
                exact Avoids.ok _
            | some bound =>
                obtain ⟨depth, settled⟩ := ih (name :: active, bound) (.bound (by simpa using isActive) found)
                refine ⟨depth + 1, ?_⟩
                simp only [within, if_neg isActive, found]
                exact settled
      | output index =>
          cases found : workspace.output? index with
          | none =>
              refine ⟨1, ?_⟩
              simp only [within, found]
              exact Avoids.ok _
          | some stored =>
              obtain ⟨depth, settled⟩ := ih (active, stored) (.stored found)
              refine ⟨depth + 1, ?_⟩
              simp only [within, found]
              exact settled
      | chain precedence operands operators =>
          obtain ⟨depth, settled⟩ := parts
          exact ⟨depth + 1, foldChain_avoids endlessReference_isStructural
            (fun operand member => settled operand member depth (Nat.le_refl _))
            fun final _ => expression_settled final⟩
      | tower operands =>
          obtain ⟨depth, settled⟩ := parts
          exact ⟨depth + 1,
            evaluateTower_avoids endlessReference_isStructural fun operand member =>
              settled operand member depth (Nat.le_refl _)⟩
      | negation operand =>
          obtain ⟨depth, settled⟩ := parts
          exact ⟨depth + 1, Avoids.map (settled operand List.mem_cons_self depth (Nat.le_refl _)) _⟩

theorem evaluate_settled {expression : Expression} (terminates : Terminates workspace expression) :
    expression.evaluate workspace ≠ .error .endlessReference := by
  obtain ⟨depth, settled⟩ := exists_depth_settled terminates
  rw [evaluate_eq_within settled]
  exact settled

end Evaluation

end QuantityCalculator
