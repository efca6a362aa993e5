import QuantityCalculator.Proofs.Evaluation.Exact

/-!
Partial evaluation.

What depends on unbound variables is left over by an evaluation.  Evaluating it again once they are bound
gives what evaluating everything at once would have given.
-/

namespace QuantityCalculator

structure Workspace.WellFormed (workspace : Workspace) : Prop where
  outputs : ∀ index stored, workspace.output? index = some stored → stored.WellFormed
  bindings : ∀ name bound, workspace.bindings.find? name = some bound → bound.WellFormed

/-- The first workspace binds further variables of the second one, each to an exact quantity. -/
structure Workspace.Completes (full part : Workspace) : Prop where
  outputs : full.outputs = part.outputs
  bound : ∀ name bound, part.bindings.find? name = some bound → full.bindings.find? name = some bound
  further : ∀ name bound, part.bindings.find? name = none → full.bindings.find? name = some bound →
    ∃ amount : Amount, bound = .quantity amount.quantity

/-- Binding a further variable to an exact quantity. -/
theorem Workspace.completes_bind {part : Workspace} {name : String}
    (unbound : part.bindings.find? name = none) (amount : Amount) :
    Completes { part with bindings := part.bindings.bind name (.quantity amount.quantity) } part := by
  refine ⟨rfl, ?_, ?_⟩
  · intro other bound found
    have different : other ≠ name := by
      intro same
      rw [same, unbound] at found
      cases found
    exact (Bindings.find?_bind_of_ne name other _ part.bindings different).trans found
  · intro other bound unboundBefore found
    by_cases same : other = name
    · rw [same] at found
      exact ⟨amount, Option.some.inj (found.symm.trans (Bindings.find?_bind_self name _ part.bindings))⟩
    · have before := (Bindings.find?_bind_of_ne name other _ part.bindings same).symm.trans found
      rw [unboundBefore] at before
      cases before

namespace Evaluation

variable {part full : Workspace}

private theorem itself_renders {values : Valuation} {expression : Expression} {amount : Amount}
    (isReference : expression.IsReference) (means : expression.amount? values = some amount) :
    Renders values False amount expression := by
  cases expression with
  | var name => exact ⟨.var name trivial, trivial, means, fun impossible => impossible.elim⟩
  | output index => exact ⟨.output index trivial, trivial, means, fun impossible => impossible.elim⟩
  | _ => exact isReference.elim

theorem within_part_renders (stored : part.WellFormed) (completes : full.Completes part) {depth : Nat}
    {active : List String} {expression : Expression} {quantity : Quantity} {amount : Amount}
    (wellFormed : expression.WellFormed) (exact : StaysExact full active expression)
    (evaluated : within full depth active expression = .ok (.quantity quantity))
    (means : expression.amount? full.valuation = some amount) (others : List String) :
    UnlessOverflow (Renders full.valuation False amount) (within part depth others expression) := by
  induction depth generalizing active expression quantity amount others with
  | zero => cases evaluated
  | succ depth ih =>
      have called : ∀ {calledActive : List String} {called : Expression}, called.WellFormed →
          StaysExact full calledActive called →
            within full depth calledActive called = .ok (.quantity quantity) → ∀ others,
              UnlessOverflow (Renders full.valuation False amount) (within part depth others called) := by
        intro calledActive called calledWellFormed calledExact calledEvaluated others
        obtain ⟨other, calledMeans, isOther⟩ :=
          amount_of_quantity calledWellFormed calledExact calledEvaluated
        obtain ⟨same, sameMeans, isSame⟩ := amount_of_quantity wellFormed exact evaluated
        rw [means] at sameMeans
        have amounts : amount = other := by
          rw [Option.some.inj sameMeans]
          exact Amount.quantity_injective (isSame.symm.trans isOther)
        rw [amounts]
        exact ih calledWellFormed calledExact calledEvaluated calledMeans others
      apply within_succ_renders wellFormed means
      · intro isReference
        have itself := itself_renders isReference means
        cases expression with
        | var name =>
            by_cases isActive : others.contains name = true
            · simp only [within, if_pos isActive]
              exact itself
            · simp only [within, if_neg isActive]
              cases found : part.bindings.find? name with
              | none => exact itself
              | some bound =>
                  have foundFull := completes.bound name bound found
                  by_cases inactive : active.contains name = true
                  · simp only [within, if_pos inactive] at evaluated
                    cases evaluated
                  · simp only [within, if_neg inactive, foundFull] at evaluated
                    have notMember : name ∉ active := fun member => inactive (List.elem_iff.mpr member)
                    exact called (stored.bindings name bound found) (exact.call (.bound notMember foundFull))
                      evaluated (name :: others)
        | output index =>
            have sameOutput : full.output? index = part.output? index := by
              unfold Workspace.output?
              rw [completes.outputs]
            simp only [within]
            cases found : part.output? index with
            | none => exact itself
            | some result =>
                rw [found] at sameOutput
                simp only [within, sameOutput] at evaluated
                exact called (stored.outputs index result found) (exact.call (.stored sameOutput)) evaluated
                  others
        | _ => exact isReference.elim
      · intro operand member operandAmount operandMeans
        obtain ⟨value, operandEvaluated⟩ := exists_quantity_of_part wellFormed evaluated operand member
        exact ih (wellFormed.part trivial member) (exact.call (.part member)) operandEvaluated operandMeans others

end Evaluation

/-- An expression that has an exact value once all variables are bound can be evaluated before.  What is
left then has the same value. -/
theorem Expression.evaluate_residual {part full : Workspace} {expression : Expression}
    {quantity : Quantity} (stored : part.WellFormed) (completes : full.Completes part)
    (wellFormed : expression.WellFormed)
    (value : expression.evaluate full = .ok (.quantity quantity))
    (exact : Evaluation.StaysExact full [] expression)
    (inRange : expression.evaluate part ≠ .error .overflow)
    (laterInRange : ∀ residual, expression.evaluate part = .ok residual →
      residual.evaluate full ≠ .error .overflow) :
    ∃ residual, expression.evaluate part = .ok residual ∧
      residual.evaluate full = .ok (.quantity quantity) := by
  obtain ⟨amount, means, rfl⟩ := Evaluation.amount_of_quantity wellFormed exact value
  have partly := Evaluation.within_part_renders stored completes wellFormed exact value means []
  have evaluated := Evaluation.evaluate_eq_within partly.settled
  rw [← evaluated] at partly
  obtain ⟨residual, isResidual, renders⟩ := partly.ok_of_ne inRange
  have later := Evaluation.evaluate_of_amount? renders.wellFormed renders.meaning
  obtain ⟨result, isResult, rfl⟩ := later.ok_of_ne (laterInRange residual isResidual)
  exact ⟨residual, isResidual, isResult⟩

/-- The sum `x + 3`. -/
def Expression.threeMore : Expression :=
  .chain .sum [.var "x", .quantity (.ofNumber (.exact 3))] [.add]

/-- The product `2 * y`. -/
def Expression.twice : Expression :=
  .chain .product [.quantity (.ofNumber (.exact 2)), .var "y"] [.multiply]

def Workspace.unbound : Workspace :=
  { Workspace.empty with bindings := [("y", .threeMore)] }

def Workspace.bound : Workspace :=
  { Workspace.unbound with
    bindings := Workspace.unbound.bindings.bind "x" (.quantity (.ofNumber (.exact 2))) }

private theorem mem_pair {holds : Expression → Prop} {first second : Expression} (firstHolds : holds first)
    (secondHolds : holds second) : ∀ operand, operand ∈ [first, second] → holds operand := by
  intro operand member
  rcases List.mem_cons.mp member with same | last
  · rw [same]
    exact firstHolds
  · rw [List.mem_singleton.mp last]
    exact secondHolds

private theorem noOutput_unbound (index : Nat) (stored : Expression) :
    Workspace.unbound.output? index ≠ some stored := by
  intro found
  cases (Workspace.output?_eq_some found).2.2

private theorem unbound_wellFormed : Workspace.unbound.WellFormed := by
  refine ⟨fun index stored found => absurd found (noOutput_unbound index stored), fun name bound found => ?_⟩
  cases List.mem_singleton.mp (Bindings.mem_of_find? found)
  exact .chain (by decide) (by decide) rfl nofun (mem_pair (.var "x" trivial) (.quantity _ trivial))

private theorem twice_staysExact : Evaluation.StaysExact .bound [] .twice := by
  have threeMore : Evaluation.PowerFree .threeMore :=
    .chain (by decide) (mem_pair (.var "x") (.quantity ⟨3, Dimension.one⟩))
  have twice : Evaluation.PowerFree .twice :=
    .chain (by decide) (mem_pair (.quantity ⟨2, Dimension.one⟩) (.var "y"))
  refine Evaluation.staysExact_of_powerFree ⟨fun name bound found => ?_, fun index stored found => ?_⟩ twice
  · rcases List.mem_cons.mp (Bindings.mem_of_find? found) with first | second
    · cases first
      exact .quantity ⟨2, Dimension.one⟩
    · cases List.mem_singleton.mp second
      exact threeMore
  · exact absurd found (noOutput_unbound index stored)

theorem Expression.evaluate_residual_twice :
    ∃ residual, twice.evaluate .unbound = .ok residual ∧
      residual.evaluate .bound = .ok (.quantity (.ofNumber (.exact 10))) := by
  have completes : Workspace.bound.Completes .unbound := Workspace.completes_bind rfl ⟨2, Dimension.one⟩
  have wellFormed : twice.WellFormed :=
    .chain (by decide) (by decide) rfl nofun (mem_pair (.quantity _ trivial) (.var "y" trivial))
  have value : Evaluation.settledAmount? (twice.evaluate .bound) = some ⟨10, Dimension.one⟩ := by
    decide +kernel
  have later : Evaluation.settledAmount? (twice.evaluate .unbound >>= (·.evaluate .bound)) =
      some ⟨10, Dimension.one⟩ := by
    decide +kernel
  apply evaluate_residual unbound_wellFormed completes wellFormed
    (Evaluation.settledAmount?_eq_some.mp value) twice_staysExact
  · intro overflow
    rw [overflow] at later
    cases later
  · intro residual isResidual overflow
    rw [isResidual] at later
    change Evaluation.settledAmount? (residual.evaluate .bound) = _ at later
    rw [overflow] at later
    cases later

end QuantityCalculator
