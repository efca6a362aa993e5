import QuantityCalculator.Proofs.Evaluation.Meaning

/-!
Evaluations with exact numbers.

An evaluation stays exact if all quantities are exact that it comes across.  The quantity it ends in is
then what the expression stands for, with all variables and results taken for their values.
-/

namespace QuantityCalculator.Evaluation

/-- What the evaluation of an expression goes on to evaluate, and under which active variables. -/
inductive Calls (workspace : Workspace) : List String × Expression → List String × Expression → Prop where
  | bound {active : List String} {name : String} {bound : Expression} (inactive : name ∉ active)
      (found : workspace.bindings.find? name = some bound) :
      Calls workspace (active, .var name) (name :: active, bound)
  | stored {active : List String} {index : Nat} {stored : Expression}
      (found : workspace.output? index = some stored) :
      Calls workspace (active, .output index) (active, stored)
  | part {active : List String} {expression operand : Expression} (member : operand ∈ expression.parts) :
      Calls workspace (active, expression) (active, operand)
  /-- The exponent of a power is itself a tower. -/
  | exponent {active : List String} {base : Expression} {rest : List Expression} (nonempty : rest ≠ []) :
      Calls workspace (active, .tower (base :: rest)) (active, .tower rest)

/-- All quantities that an evaluation comes across are exact. -/
def StaysExact (workspace : Workspace) (active : List String) (expression : Expression) : Prop :=
  ∀ called, Relation.ReflTransGen (Calls workspace) (active, expression) called → ∀ depth quantity,
    within workspace depth called.1 called.2 = .ok (.quantity quantity) →
      quantity.magnitude.isExact = true

variable {workspace : Workspace} {active : List String} {expression : Expression}

theorem StaysExact.call {others : List String} {called : Expression}
    (exact : StaysExact workspace active expression)
    (calls : Calls workspace (active, expression) (others, called)) :
    StaysExact workspace others called :=
  fun final later => exact final (Relation.ReflTransGen.head calls later)

private theorem StaysExact.exists_amount (exact : StaysExact workspace active expression) {depth : Nat}
    {quantity : Quantity}
    (evaluated : within workspace depth active expression = .ok (.quantity quantity)) :
    ∃ amount : Amount, quantity = amount.quantity :=
  Amount.exists_of_isExact (exact (active, expression) .refl depth quantity evaluated)

/-- A quantity at some depth and under some active variables is the outcome of the expression. -/
theorem evaluate_of_quantity {depth : Nat} {quantity : Quantity}
    (evaluated : within workspace depth active expression = .ok (.quantity quantity)) :
    expression.evaluate workspace = .ok (.quantity quantity) := by
  have alone := within_eq_quantity_of_subset (List.nil_subset active) evaluated
  rw [evaluate_eq_within, alone]
  rw [alone]
  exact fun endless => by cases endless

def isExactOutcome : Except EvaluationError Expression → Bool
  | .ok (.quantity value) => value.magnitude.isExact
  | _ => true

/-! ### Expressions in known references -/

end Evaluation

namespace Expression

mutual

def inside : Expression → List Expression
  | .quantity value => [.quantity value]
  | .var name => [.var name]
  | .output index => [.output index]
  | .chain precedence operands operators => .chain precedence operands operators :: insideOfList operands
  | .tower operands => insideOfTower operands
  | .negation operand => .negation operand :: operand.inside

def insideOfList : List Expression → List Expression
  | [] => []
  | first :: rest => first.inside ++ insideOfList rest

/-- A tower is raised to a tower, that of the operands above the first one. -/
def insideOfTower : List Expression → List Expression
  | [] => [.tower []]
  | base :: rest => .tower (base :: rest) :: (base.inside ++ insideOfTower rest)

end

private theorem mem_insideOfTower_self (operands : List Expression) : .tower operands ∈ insideOfTower operands := by
  cases operands <;> exact List.mem_cons_self

private theorem mem_inside_self (expression : Expression) : expression ∈ expression.inside := by
  cases expression with
  | tower operands => exact mem_insideOfTower_self operands
  | _ => exact List.mem_cons_self

mutual

private theorem inside_subset {inner : Expression} :
    (expression : Expression) → inner ∈ expression.inside → inner.inside ⊆ expression.inside
  | .chain _ operands _, found => by
      rcases List.mem_cons.mp found with rfl | within
      · exact List.Subset.refl _
      · exact List.subset_cons_of_subset _ (insideOfList_subset operands within)
  | .tower operands, found => insideOfTower_subset operands found
  | .negation operand, found => by
      rcases List.mem_cons.mp found with rfl | within
      · exact List.Subset.refl _
      · exact List.subset_cons_of_subset _ (inside_subset operand within)
  | .quantity _, found => by rw [List.mem_singleton.mp found]; exact List.Subset.refl _
  | .var _, found => by rw [List.mem_singleton.mp found]; exact List.Subset.refl _
  | .output _, found => by rw [List.mem_singleton.mp found]; exact List.Subset.refl _

private theorem insideOfList_subset {inner : Expression} :
    (operands : List Expression) → inner ∈ insideOfList operands → inner.inside ⊆ insideOfList operands
  | first :: rest, found => by
      rcases List.mem_append.mp found with inFirst | later
      · exact List.subset_append_of_subset_left _ (inside_subset first inFirst)
      · exact List.subset_append_of_subset_right _ (insideOfList_subset rest later)

private theorem insideOfTower_subset {inner : Expression} :
    (operands : List Expression) → inner ∈ insideOfTower operands → inner.inside ⊆ insideOfTower operands
  | [], found => by
      rw [List.mem_singleton.mp found]
      exact List.Subset.refl _
  | base :: rest, found => by
      rcases List.mem_cons.mp found with rfl | within
      · exact List.Subset.refl _
      · rcases List.mem_append.mp within with inBase | later
        · exact List.subset_cons_of_subset _
            (List.subset_append_of_subset_left _ (inside_subset base inBase))
        · exact List.subset_cons_of_subset _
            (List.subset_append_of_subset_right _ (insideOfTower_subset rest later))

end

private theorem mem_inside_of_mem_parts {expression operand : Expression} (member : operand ∈ expression.parts) :
    operand ∈ expression.inside := by
  have inList : ∀ operands, operand ∈ operands → operand ∈ insideOfList operands := by
    intro operands
    induction operands with
    | nil => exact fun member => by cases member
    | cons first rest ih =>
        intro member
        rcases List.mem_cons.mp member with rfl | later
        · exact List.mem_append_left _ (mem_inside_self _)
        · exact List.mem_append_right _ (ih later)
  have inTower : ∀ operands, operand ∈ operands → operand ∈ insideOfTower operands := by
    intro operands
    induction operands with
    | nil => exact fun member => by cases member
    | cons base rest ih =>
        intro member
        rcases List.mem_cons.mp member with rfl | later
        · exact List.mem_cons_of_mem _ (List.mem_append_left _ (mem_inside_self _))
        · exact List.mem_cons_of_mem _ (List.mem_append_right _ (ih later))
  cases expression with
  | chain precedence operands operators => exact List.mem_cons_of_mem _ (inList operands member)
  | tower operands => exact inTower operands member
  | negation negated =>
      rw [List.mem_singleton.mp member]
      exact List.mem_cons_of_mem _ (mem_inside_self _)
  | _ => cases member

end Expression

namespace Evaluation

def isExactQuantity : Expression → Bool
  | .quantity value => value.magnitude.isExact
  | _ => false

def refersToExact (workspace : Workspace) : Expression → Bool
  | .var name => (workspace.bindings.find? name).all isExactQuantity
  | .output index => (workspace.output? index).all isExactQuantity
  | _ => true

private theorem exists_exact_of_isExactQuantity (isExact : isExactQuantity expression = true) :
    ∃ value, expression = .quantity value ∧ value.magnitude.isExact = true := by
  cases expression with
  | quantity value => exact ⟨value, rfl, isExact⟩
  | _ => cases isExact

private theorem exists_exact_of_bound {name : String} {bound : Expression}
    (refers : refersToExact workspace (.var name) = true) (found : workspace.bindings.find? name = some bound) :
    ∃ value, bound = .quantity value ∧ value.magnitude.isExact = true := by
  rw [refersToExact, found] at refers
  exact exists_exact_of_isExactQuantity refers

private theorem exists_exact_of_stored {index : Nat} {stored : Expression}
    (refers : refersToExact workspace (.output index) = true) (found : workspace.output? index = some stored) :
    ∃ value, stored = .quantity value ∧ value.magnitude.isExact = true := by
  rw [refersToExact, found] at refers
  exact exists_exact_of_isExactQuantity refers

private theorem not_calls_of_quantity {caller called : List String × Expression} {value : Quantity}
    (isQuantity : caller.2 = .quantity value) : ¬Calls workspace caller called := by
  intro calls
  obtain ⟨active, expression⟩ := caller
  change expression = .quantity value at isQuantity
  subst isQuantity
  cases calls with
  | part member => cases member

/-- An evaluation stays exact if all references in the expression are to exact quantities, and if nothing inside of
it makes a quantity with an approximate number. -/
theorem staysExact_of_inside (exact : (expression.inside.all fun inner =>
    refersToExact workspace inner && isExactOutcome (inner.evaluate workspace)) = true) :
    StaysExact workspace active expression := by
  have each : ∀ inner, inner ∈ expression.inside →
      refersToExact workspace inner = true ∧ isExactOutcome (inner.evaluate workspace) = true :=
    fun inner member => Bool.and_eq_true_iff.mp (List.all_eq_true.mp exact inner member)
  intro called calls depth quantity evaluated
  -- the evaluation stays inside of the expression until it comes to the quantity that a reference stands for
  have reached : called.2 ∈ expression.inside ∨ ∃ value, called.2 = .quantity value ∧ value.magnitude.isExact = true := by
    clear evaluated
    induction calls with
    | refl => exact Or.inl (Expression.mem_inside_self expression)
    | tail _ step ih =>
        rcases ih with within | ⟨value, isQuantity, _⟩
        · cases step with
          | bound _ found => exact Or.inr (exists_exact_of_bound (each _ within).1 found)
          | stored found => exact Or.inr (exists_exact_of_stored (each _ within).1 found)
          | part member =>
              exact Or.inl (Expression.inside_subset expression within (Expression.mem_inside_of_mem_parts member))
          | exponent _ =>
              refine Or.inl (Expression.inside_subset expression within ?_)
              exact List.mem_cons_of_mem _ (List.mem_append_right _ (Expression.mem_insideOfTower_self _))
        · exact (not_calls_of_quantity isQuantity step).elim
  obtain ⟨others, inner⟩ := called
  rcases reached with within | ⟨value, rfl, isExact⟩
  · have isExact := (each _ within).2
    rw [evaluate_of_quantity evaluated] at isExact
    exact isExact
  · cases depth with
    | zero => cases evaluated
    | succ depth =>
        cases evaluated
        exact isExact

/-! ### Quantities and amounts -/

private theorem exists_total_of_foldValues {terms : List (Operator × Amount)} {front : Option Amount}
    {quantity : Quantity} (noRaise : ∀ term, term ∈ terms → term.1 ≠ .raise)
    (made : foldValues (front.map Amount.quantity) (terms.map fun term => (term.1, term.2.quantity)) =
      .ok (some quantity)) :
    ∃ amount, Amount.total? front terms = some amount ∧ quantity = amount.quantity := by
  induction terms generalizing front with
  | nil =>
      cases front with
      | none => cases made
      | some amount =>
          cases made
          exact ⟨amount, rfl, rfl⟩
  | cons term rest ih =>
      simp only [List.map_cons, foldValues, getD_neutral] at made
      obtain ⟨next, applied, others⟩ := bind_eq_ok_iff.mp made
      obtain ⟨amount, combined, rfl⟩ := Amount.combine?_of_apply applied
        fun isRaise => absurd isRaise (noRaise term List.mem_cons_self)
      have later : ∃ total, Amount.total? (some amount) rest = some total ∧
          quantity = total.quantity :=
        ih (fun other member => noRaise other (List.mem_cons_of_mem _ member)) others
      obtain ⟨total, found, isTotal⟩ := later
      refine ⟨total, ?_, isTotal⟩
      change (Amount.combine? term.1 _ term.2).bind _ = _
      rw [combined]
      exact found

/-- Operands that are evaluated to exact quantities stand for their amounts. -/
theorem exists_amounts {values : Valuation} {evaluate : Expression → Except EvaluationError Expression}
    {operands : List Expression} {quantities : List Quantity}
    (each : List.Forall₂ (fun operand quantity => evaluate operand = .ok (.quantity quantity)) operands
      quantities)
    (stands : ∀ operand, operand ∈ operands → ∀ quantity, evaluate operand = .ok (.quantity quantity) →
      ∃ amount, operand.amount? values = some amount ∧ quantity = amount.quantity) :
    ∃ amounts, Expression.amounts? values operands = some amounts ∧
      quantities = amounts.map Amount.quantity := by
  induction each with
  | nil => exact ⟨[], rfl, rfl⟩
  | @cons operand quantity rest later evaluated _ ih =>
      obtain ⟨amount, means, rfl⟩ := stands operand List.mem_cons_self quantity evaluated
      obtain ⟨amounts, found, rfl⟩ := ih fun other member => stands other (List.mem_cons_of_mem _ member)
      refine ⟨amount :: amounts, ?_, rfl⟩
      simp only [Expression.amounts?, means, found, Option.bind_some, Option.map_some]

private theorem chain_of_quantity {values : Valuation} {evaluate : Expression → Except EvaluationError Expression}
    {precedence : Precedence} {operands : List Expression} {operators : List Operator} {quantity : Quantity}
    (noPower : precedence ≠ .power)
    (single : ∀ operator, operator ∈ operators → operator.precedence = precedence)
    (count : operands.length = operators.length + 1)
    (tidy : ∀ operand, operand ∈ operands → ∀ result, evaluate operand = .ok result → result.Tidy)
    (stands : ∀ operand, operand ∈ operands → ∀ quantity, evaluate operand = .ok (.quantity quantity) →
      ∃ amount, operand.amount? values = some amount ∧ quantity = amount.quantity)
    (evaluated : foldChain evaluate operators operands = .ok (.quantity quantity)) :
    ∃ amount, (Expression.chain precedence operands operators).amount? values = some amount ∧
      quantity = amount.quantity := by
  obtain ⟨leadingNoPower, allSingle⟩ := leading_single noPower single
  obtain ⟨quantities, each, made⟩ := (foldChain_eq_quantity_iff_operands count tidy).mp evaluated
  obtain ⟨amounts, found, rfl⟩ := exists_amounts each stands
  rw [List.zip_map_right] at made
  have noRaise : ∀ term, term ∈ (leading operators :: operators).zip amounts → term.1 ≠ .raise := by
    intro term member isRaise
    have sameAsLeading := allSingle term.1 (List.of_mem_zip member).1
    rw [isRaise] at sameAsLeading
    exact leadingNoPower sameAsLeading.symm
  have total : ∃ amount, Amount.total? none ((leading operators :: operators).zip amounts) = some amount ∧
      quantity = amount.quantity := exists_total_of_foldValues noRaise made
  obtain ⟨amount, totalled, isAmount⟩ := total
  refine ⟨amount, ?_, isAmount⟩
  simp only [Expression.amount?, found, Option.bind_some]
  cases amounts with
  | nil => cases totalled
  | cons next rest =>
      rw [List.zip_cons_cons, Amount.total?_none_cons (forward_leading operators) leadingNoPower] at totalled
      exact totalled

/-! ### Expressions -/

private theorem reference_of_quantity (exact : StaysExact workspace active expression) {depth : Nat}
    {quantity : Quantity} (isReference : expression.IsReference)
    (evaluated : within workspace depth active expression = .ok (.quantity quantity)) :
    ∃ amount, expression.amount? workspace.valuation = some amount ∧ quantity = amount.quantity := by
  obtain ⟨amount, rfl⟩ := exact.exists_amount evaluated
  have outcome := evaluate_of_quantity evaluated
  refine ⟨amount, ?_, rfl⟩
  cases expression with
  | var name => exact settledAmount?_eq_some.mpr outcome
  | output index => exact settledAmount?_eq_some.mpr outcome
  | _ => exact isReference.elim

private theorem tower_of_quantity {depth : Nat} {operands : List Expression} {quantity : Quantity}
    (exact : StaysExact workspace active (.tower operands))
    (stands : ∀ operand, operand ∈ operands → ∀ quantity,
      within workspace depth active operand = .ok (.quantity quantity) →
        ∃ amount, operand.amount? workspace.valuation = some amount ∧ quantity = amount.quantity)
    (evaluated : evaluateTower (within workspace depth active) operands = .ok (.quantity quantity)) :
    ∃ amount, (Expression.tower operands).amount? workspace.valuation = some amount ∧
      quantity = amount.quantity := by
  induction operands generalizing quantity with
  | nil => exact absurd evaluated evaluateTower_nil_ne_quantity
  | cons base rest ih =>
      by_cases empty : rest = []
      · subst empty
        obtain ⟨amount, means, isAmount⟩ :=
          stands base List.mem_cons_self quantity (evaluateTower_single_iff.mp evaluated)
        refine ⟨amount, ?_, isAmount⟩
        simp only [Expression.amount?, Expression.amounts?, means, Option.map_some, Option.bind_some,
          Amount.tower?]
      · obtain ⟨exponent, exponentMade, first, baseEvaluated, raised⟩ :=
          (evaluateTower_cons_iff empty).mp evaluated
        obtain ⟨power, meansPower, rfl⟩ := ih (exact.call (.exponent empty))
          (fun operand member => stands operand (List.mem_cons_of_mem _ member)) exponentMade
        obtain ⟨amount, means, rfl⟩ := stands base List.mem_cons_self first baseEvaluated
        have evaluatedAbove : within workspace (depth + 1) active (.tower (base :: rest)) =
            .ok (.quantity quantity) := evaluated
        obtain ⟨total, isTotal⟩ := exact.exists_amount evaluatedAbove
        have applied : Operator.raise.apply amount.quantity power.quantity = .ok quantity := raised
        obtain ⟨result, combined, isResult⟩ := Amount.combine?_of_apply applied
          fun _ => by rw [isTotal]; rfl
        refine ⟨result, ?_, isResult⟩
        rw [Expression.amount?_tower_cons base empty, means, meansPower]
        exact combined

/-- The quantity that an exact evaluation ends in is what the expression stands for. -/
theorem amount_of_quantity {depth : Nat} {quantity : Quantity} (wellFormed : expression.WellFormed)
    (exact : StaysExact workspace active expression)
    (evaluated : within workspace depth active expression = .ok (.quantity quantity)) :
    ∃ amount, expression.amount? workspace.valuation = some amount ∧ quantity = amount.quantity := by
  induction wellFormed generalizing depth quantity with
  | var name => exact reference_of_quantity exact trivial evaluated
  | output index => exact reference_of_quantity exact trivial evaluated
  | quantity value =>
      cases depth with
      | zero => cases evaluated
      | succ depth =>
          cases evaluated
          have itself : within workspace 1 active (.quantity value) = .ok (.quantity value) := rfl
          obtain ⟨amount, rfl⟩ := exact.exists_amount itself
          exact ⟨amount, rfl, rfl⟩
  | @chain precedence operands operators noPower single count _ parts ih =>
      cases depth with
      | zero => cases evaluated
      | succ depth =>
          apply chain_of_quantity noPower single count _ _ evaluated
          · exact fun operand _ result operandEvaluated => within_tidy operandEvaluated
          · exact fun operand member value operandEvaluated =>
              ih operand member (exact.call (.part member)) operandEvaluated
  | @tower operands _ parts ih =>
      cases depth with
      | zero => cases evaluated
      | succ depth =>
          exact tower_of_quantity exact
            (fun operand member value operandEvaluated =>
              ih trivial operand member (exact.call (.part member)) operandEvaluated) evaluated
  | @negation operand _ part ih =>
      cases depth with
      | zero => cases evaluated
      | succ depth =>
          obtain ⟨value, operandEvaluated, rfl⟩ := map_negate_eq_quantity
            (fun result isResult => within_tidy isResult) evaluated
          have member : operand ∈ (Expression.negation operand).parts := List.mem_cons_self
          obtain ⟨amount, means, rfl⟩ := ih (exact.call (.part member)) operandEvaluated
          refine ⟨-amount, ?_, rfl⟩
          simp only [Expression.amount?, means, Option.map_some]

/-! ### Evaluations without powers -/

inductive PowerFree : Expression → Prop where
  | quantity (amount : Amount) : PowerFree (.quantity amount.quantity)
  | var (name : String) : PowerFree (.var name)
  | output (index : Nat) : PowerFree (.output index)
  | chain {precedence : Precedence} {operands : List Expression} {operators : List Operator}
      (noRaise : ∀ operator, operator ∈ operators → operator ≠ .raise)
      (parts : ∀ operand, operand ∈ operands → PowerFree operand) :
      PowerFree (.chain precedence operands operators)
  | negation {operand : Expression} (part : PowerFree operand) : PowerFree (.negation operand)

structure PowerFreeWorkspace (workspace : Workspace) : Prop where
  bindings : ∀ name bound, workspace.bindings.find? name = some bound → PowerFree bound
  outputs : ∀ index stored, workspace.output? index = some stored → PowerFree stored

private theorem leading_ne_raise {operators : List Operator}
    (noRaise : ∀ operator, operator ∈ operators → operator ≠ .raise) : leading operators ≠ .raise := by
  cases operators with
  | nil => exact fun same => by cases same
  | cons first rest =>
      have firstNoRaise := noRaise first List.mem_cons_self
      cases first with
      | raise => exact absurd rfl firstNoRaise
      | _ => exact fun same => by cases same

private theorem exists_map_of_each {steps : List (Operator × Expression)} {quantities : List Quantity}
    {evaluate : Expression → Except EvaluationError Expression}
    (each : List.Forall₂ (fun step quantity => evaluate step.2 = .ok (.quantity quantity)) steps quantities)
    (stands : ∀ step, step ∈ steps → ∀ quantity, evaluate step.2 = .ok (.quantity quantity) →
      ∃ amount : Amount, quantity = amount.quantity) :
    ∃ amounts : List Amount, quantities = amounts.map Amount.quantity := by
  induction each with
  | nil => exact ⟨[], rfl⟩
  | @cons step quantity rest later evaluated _ ih =>
      obtain ⟨amount, rfl⟩ := stands step List.mem_cons_self quantity evaluated
      obtain ⟨amounts, rfl⟩ := ih fun other member => stands other (List.mem_cons_of_mem _ member)
      exact ⟨amount :: amounts, rfl⟩

/-- Operands that make exact quantities make one in a chain without powers. -/
theorem amount_of_foldChain {evaluate : Expression → Except EvaluationError Expression}
    {operands : List Expression} {operators : List Operator} {quantity : Quantity}
    (noRaise : ∀ operator, operator ∈ operators → operator ≠ .raise)
    (tidy : ∀ operand, operand ∈ operands → ∀ result, evaluate operand = .ok result → result.Tidy)
    (stands : ∀ operand, operand ∈ operands → ∀ value, evaluate operand = .ok (.quantity value) →
      ∃ amount : Amount, value = amount.quantity)
    (folded : foldChain evaluate operators operands = .ok (.quantity quantity)) :
    ∃ amount : Amount, quantity = amount.quantity := by
  obtain ⟨quantities, each, made⟩ := (foldChain_eq_quantity_iff tidy).mp folded
  obtain ⟨amounts, rfl⟩ := exists_map_of_each each fun step member value stepEvaluated =>
    stands step.2 (List.of_mem_zip member).2 value stepEvaluated
  rw [List.zip_map_right] at made
  have noRaiseTerm : ∀ term, term ∈ ((chainSteps operators operands).map Prod.fst).zip amounts →
      term.1 ≠ .raise := by
    intro term member
    obtain ⟨step, inSteps, isFirst⟩ := List.mem_map.mp (List.of_mem_zip member).1
    rw [← isFirst]
    rcases List.mem_cons.mp (List.of_mem_zip inSteps).1 with isLeading | later
    · rw [isLeading]
      exact leading_ne_raise noRaise
    · exact noRaise step.1 later
  have noFront : (none : Option Quantity) = (none : Option Amount).map Amount.quantity := rfl
  rw [noFront] at made
  obtain ⟨total, _, isTotal⟩ := exists_total_of_foldValues noRaiseTerm made
  exact ⟨total, isTotal⟩

private theorem amount_of_powerFree (stored : PowerFreeWorkspace workspace) {depth : Nat} {quantity : Quantity}
    (powerFree : PowerFree expression)
    (evaluated : within workspace depth active expression = .ok (.quantity quantity)) :
    ∃ amount : Amount, quantity = amount.quantity := by
  induction depth generalizing active expression quantity with
  | zero => cases evaluated
  | succ depth ih =>
      cases powerFree with
      | quantity amount =>
          cases evaluated
          exact ⟨amount, rfl⟩
      | var name =>
          simp only [within] at evaluated
          split at evaluated
          · cases evaluated
          · split at evaluated
            · cases evaluated
            · rename_i bound found
              exact ih (stored.bindings name bound found) evaluated
      | output index =>
          simp only [within] at evaluated
          split at evaluated
          · cases evaluated
          · rename_i result found
            exact ih (stored.outputs index result found) evaluated
      | @chain precedence operands operators noRaise parts =>
          exact amount_of_foldChain noRaise (fun operand _ result operandEvaluated => within_tidy operandEvaluated)
            (fun operand member _ operandEvaluated => ih (parts operand member) operandEvaluated) evaluated
      | negation part =>
          obtain ⟨value, operandEvaluated, rfl⟩ := map_negate_eq_quantity
            (fun result isResult => within_tidy isResult) evaluated
          obtain ⟨amount, rfl⟩ := ih part operandEvaluated
          exact ⟨-amount, rfl⟩

/-- Without powers, exact quantities stay exact. -/
theorem staysExact_of_powerFree (stored : PowerFreeWorkspace workspace) (powerFree : PowerFree expression) :
    StaysExact workspace active expression := by
  intro called reached
  have inside : PowerFree called.2 := by
    induction reached with
    | refl => exact powerFree
    | tail _ calls ih =>
        cases calls with
        | bound _ found => exact stored.bindings _ _ found
        | stored found => exact stored.outputs _ _ found
        | part member =>
            cases ih with
            | chain noRaise parts => exact parts _ member
            | negation part => exact List.mem_singleton.mp member ▸ part
            | _ => cases member
        | exponent nonempty => cases ih
  intro depth quantity evaluated
  obtain ⟨amount, rfl⟩ := amount_of_powerFree stored inside evaluated
  rfl

end QuantityCalculator.Evaluation
