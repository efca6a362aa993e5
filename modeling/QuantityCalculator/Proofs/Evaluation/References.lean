import QuantityCalculator.Proofs.Evaluation.Meaning

/-!
Evaluations and references to results.

An evaluation puts together what it finds in the workspace.  So what is true of all references in the
workspace and in an expression is true of the references in its result.
-/

namespace QuantityCalculator

/-! ### References to results -/

namespace Expression

inductive Mentions (index : Nat) : Expression → Prop where
  | output : Mentions index (.output index)
  | part {expression operand : Expression} (member : operand ∈ expression.parts)
      (mentions : Mentions index operand) : Mentions index expression

/-- Whatever is no reference to a result, or one with an index below a limit. -/
def RefersBelow (limit : Nat) : Expression → Prop
  | .output index => 0 < index ∧ index < limit
  | _ => True

theorem RefersBelow.mono {limit greater : Nat} (le : limit ≤ greater) {expression : Expression}
    (below : RefersBelow limit expression) : RefersBelow greater expression := by
  cases expression with
  | output index => exact ⟨below.1, Nat.lt_of_lt_of_le below.2 le⟩
  | _ => trivial

theorem Built.mono {limit greater : Nat} (le : limit ≤ greater) {expression : Expression}
    (built : expression.Built (RefersBelow limit)) : expression.Built (RefersBelow greater) :=
  built.imp fun _ => RefersBelow.mono le

theorem Built.bounds {limit index : Nat} {expression : Expression}
    (built : expression.Built (RefersBelow limit)) (mentions : expression.Mentions index) :
    0 < index ∧ index < limit := by
  induction mentions with
  | output =>
      cases built with
      | output _ isAtom => exact isAtom
  | part member _ ih => exact ih (built.part trivial member)

end Expression

open Expression (RefersBelow)

/-- A workspace whose results refer to earlier results, and whose variables refer to results that there are. -/
structure Workspace.Grounded (workspace : Workspace) : Prop where
  outputs : ∀ index stored, workspace.output? index = some stored → stored.Built (RefersBelow index)
  bindings : ∀ binding, binding ∈ workspace.bindings →
    binding.2.Built (RefersBelow (workspace.outputs.length + 1))

namespace Evaluation

variable {holds : Expression → Prop} {form kept : Expression.Form} {evaluate : Expression → Except EvaluationError Expression}

/-! ### Results of evaluations -/

structure Joins (holds : Expression → Prop) : Prop where
  quantity : ∀ value, holds (.quantity value)
  join : ∀ {left right : Expression} {operator : Operator}, operator.precedence ≠ .power → holds left →
    holds right → holds (left.join operator right)

theorem formed_joins (quantities : ∀ value, form.quantity value) : Joins (Expression.Formed form) :=
  ⟨fun value => .quantity value (quantities value), Expression.join_formed⟩

namespace Joins

theorem foldlM_join? (joins : Joins holds) {first joined : Expression} {steps : List (Operator × Expression)}
    (noPower : ∀ step, step ∈ steps → step.1.precedence ≠ .power) (firstHolds : holds first)
    (parts : ∀ step, step ∈ steps → holds step.2)
    (all : steps.foldlM (fun left step => left.join? step.1 step.2) first = some joined) : holds joined := by
  induction steps generalizing first with
  | nil => exact Option.some.inj all ▸ firstHolds
  | cons step rest ih =>
      rw [List.foldlM_cons] at all
      obtain ⟨next, stepped, others⟩ := Option.bind_eq_some_iff.mp all
      unfold Expression.join? at stepped
      split at stepped
      · cases stepped
      · refine ih (fun later member => noPower later (List.mem_cons_of_mem _ member)) ?_
          (fun later member => parts later (List.mem_cons_of_mem _ member)) others
        rw [← Option.some.inj stepped]
        exact joins.join (noPower step List.mem_cons_self) firstHolds (parts step List.mem_cons_self)

theorem joinAll? (joins : Joins holds) {operands : List Expression} {operators : List Operator}
    {joined : Expression} (noPower : ∀ operator, operator ∈ operators → operator.precedence ≠ .power)
    (parts : ∀ operand, operand ∈ operands → holds operand)
    (found : Expression.joinAll? operands operators = some joined) : holds joined := by
  cases operands with
  | nil => cases found
  | cons first rest =>
      have firstHolds := parts first List.mem_cons_self
      cases operators with
      | nil =>
          cases rest with
          | nil => exact Option.some.inj found ▸ firstHolds
          | cons second later => cases found
      | cons operator others =>
          simp only [Expression.joinAll?] at found
          split at found
          · exact joins.foldlM_join? (fun step member => noPower step.1 (List.of_mem_zip member).1) firstHolds
              (fun step member => parts step.2 (List.mem_cons_of_mem _ (List.of_mem_zip member).2)) found
          · cases found

theorem expression (joins : Joins holds) {folded : Folded} {result : Expression}
    (noPower : ∀ step, step ∈ folded.residual → step.1.precedence ≠ .power)
    (parts : ∀ step, step ∈ folded.residual → holds step.2)
    (ended : folded.expression = .ok result) : holds result := by
  have rejoined : ∀ {operands operators}, rejoin operands operators = .ok result →
      (∀ operator, operator ∈ operators → operator ∈ folded.residual.map Prod.fst) →
      (∀ operand, operand ∈ operands → holds operand) → holds result := by
    intro operands operators isResult fromResidual operandsHold
    unfold rejoin at isResult
    split at isResult
    · rename_i found
      cases isResult
      refine joins.joinAll? (fun operator member => ?_) operandsHold found
      obtain ⟨step, inResidual, isFirst⟩ := List.mem_map.mp (fromResidual operator member)
      exact isFirst ▸ noPower step inResidual
    · cases isResult
  have residualHolds : ∀ operand, operand ∈ folded.residual.map Prod.snd → holds operand := by
    intro operand member
    obtain ⟨step, inResidual, isSecond⟩ := List.mem_map.mp member
    exact isSecond ▸ parts step inResidual
  unfold Folded.expression at ended
  dsimp only at ended
  split at ended
  · split at ended
    · cases ended
      exact joins.quantity _
    · exact rejoined ended (fun operator member => member)
        (List.forall_mem_cons.mpr ⟨joins.quantity _, residualHolds⟩)
  · exact rejoined ended (fun operator member => List.mem_of_mem_drop member) residualHolds

/-- What holds of the results of the operands of a chain holds of the result of the chain. -/
theorem foldChain (joins : Joins holds) {precedence : Precedence} {operators : List Operator}
    {operands : List Expression} {result : Expression} (noPower : precedence ≠ .power)
    (single : ∀ operator, operator ∈ operators → operator.precedence = precedence)
    (each : ∀ operand, operand ∈ operands → ∀ result, evaluate operand = .ok result → holds result)
    (folded : Evaluation.foldChain evaluate operators operands = .ok result) : holds result := by
  obtain ⟨leadingNoPower, allSingle⟩ := leading_single noPower single
  obtain ⟨final, all, ended⟩ := foldChain_eq_ok folded
  have fromSteps : ∀ step, step ∈ final.residual → step.1.precedence ≠ .power ∧ holds step.2 := by
    intro step member
    rcases mem_residual_of_foldlM all member with before | ⟨origin, inSteps, isOperator, evaluated, _⟩
    · exact (List.not_mem_nil before).elim
    · obtain ⟨inOperators, inOperands⟩ := List.of_mem_zip inSteps
      rw [isOperator, allSingle origin.1 inOperators]
      exact ⟨leadingNoPower, each origin.2 inOperands step.2 evaluated⟩
  exact joins.expression (fun step member => (fromSteps step member).1)
    (fun step member => (fromSteps step member).2) ended

end Joins

/-- What an evaluation of expressions of a form keeps: references that resolve to nothing that may stay in the
result may not stay there either. -/
structure Keeps (workspace : Workspace) (form kept : Expression.Form) : Prop where
  quantity : ∀ value, kept.quantity value
  spliced : kept.spliced → form.spliced
  var : ∀ name, form.atom (.var name) →
    kept.atom (.var name) ∨ ∃ value, workspace.bindings.find? name = some (.quantity value)
  output : ∀ index, form.atom (.output index) →
    kept.atom (.output index) ∨ ∃ stored, workspace.output? index = some stored
  tower : ∀ operands, (Expression.tower operands).Formed form → (Expression.tower operands).Formed kept

/-- An evaluation keeps a form that does not ask anything of quantities. -/
theorem Keeps.all (workspace : Workspace) (quantities : ∀ value, form.quantity value) :
    Keeps workspace form form :=
  ⟨quantities, id, fun _ => Or.inl, fun _ => Or.inl, fun _ => id⟩

/-- What is left of an expression of a form keeps only what may stay. -/
theorem within_formed {workspace : Workspace} (keeps : Keeps workspace form kept)
    (bindings : ∀ name bound, workspace.bindings.find? name = some bound → bound.Formed form)
    (outputs : ∀ index stored, workspace.output? index = some stored → stored.Formed form) {depth : Nat}
    {active : List String}
    (activeKept : ∀ name, name ∈ active → form.atom (.var name) → kept.atom (.var name))
    {expression result : Expression} (formed : expression.Formed form)
    (evaluated : within workspace depth active expression = .ok result) : result.Formed kept := by
  -- the depth decreases with each call, and what is stored is of the form of the expression
  induction depth generalizing active expression result with
  | zero => cases evaluated
  | succ depth ih =>
      cases formed with
      | quantity value _ =>
          cases evaluated
          exact .quantity value (keeps.quantity value)
      | var name isAtom =>
          simp only [within] at evaluated
          split at evaluated
          · rename_i isActive
            cases evaluated
            exact .var name (activeKept name (List.elem_iff.mp isActive) isAtom)
          · rcases keeps.var name isAtom with mayStay | ⟨value, found⟩
            · split at evaluated
              · cases evaluated
                exact .var name mayStay
              · rename_i bound found
                exact ih (List.forall_mem_cons.mpr ⟨fun _ => mayStay, activeKept⟩) (bindings name bound found)
                  evaluated
            · rw [found] at evaluated
              -- a quantity is evaluated to itself, whatever the depth
              cases depth with
              | zero => cases evaluated
              | succ depth =>
                  cases evaluated
                  exact .quantity value (keeps.quantity value)
      | output index isAtom =>
          simp only [within] at evaluated
          split at evaluated
          · rename_i missing
            cases evaluated
            rcases keeps.output index isAtom with mayStay | ⟨stored, found⟩
            · exact .output index mayStay
            · rw [missing] at found
              cases found
          · rename_i stored found
            exact ih activeKept (outputs index stored found) evaluated
      | chain noPower single _ _ parts =>
          exact (formed_joins keeps.quantity).foldChain noPower single
            (fun operand member _ operandEvaluated => ih activeKept (parts operand member) operandEvaluated)
            evaluated
      | tower isAtom parts =>
          rcases evaluateTower_eq_ok evaluated with ⟨quantity, rfl⟩ | rfl
          · exact .quantity quantity (keeps.quantity quantity)
          · exact keeps.tower _ (.tower isAtom parts)
      | negation _ part =>
          obtain ⟨inner, operandEvaluated, rfl⟩ := map_eq_ok_iff.mp evaluated
          exact Expression.negate_formed (ih activeKept part operandEvaluated)

/-- In a grounded workspace a result refers to stored results only. -/
theorem evaluate_built {workspace : Workspace} (grounded : workspace.Grounded)
    {expression result : Expression}
    (built : expression.Built (RefersBelow (workspace.outputs.length + 1)))
    (evaluated : expression.evaluate workspace = .ok result) :
    result.Built (RefersBelow (workspace.outputs.length + 1)) := by
  refine within_formed (Keeps.all workspace fun _ => trivial)
    (fun name bound found => grounded.bindings _ (Bindings.mem_of_find? found)) ?_ (fun _ _ => id) built evaluated
  intro index stored found
  obtain ⟨_, inside, _⟩ := Workspace.output?_eq_some found
  exact (grounded.outputs index stored found).mono (by omega)

end Evaluation

end QuantityCalculator
