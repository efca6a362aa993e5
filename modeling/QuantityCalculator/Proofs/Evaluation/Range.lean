import QuantityCalculator.Proofs.Evaluation.Exact

/-!
Evaluations that stay in the range of exponents.

Products and powers compute dimensions, whose exponents have to be whole numbers of 32 bits.  An expression is in
range if all the products and powers are that it computes on the way, from the left in chains and from the right
in towers.  What stands for an amount is evaluated to it exactly if it is in range.
-/

namespace QuantityCalculator

namespace Amount

def TermsFit (known : Amount) : List (Operator × Amount) → Prop
  | [] => True
  | term :: rest => ∀ next, next ∈ combine? term.1 known term.2 → Fits term.1 next ∧ TermsFit next rest

/-- What the operands of a chain make from the left fits.  A product starts with its first operand. -/
def ChainFits (operators : List Operator) : List Amount → Prop
  | [] => True
  | first :: rest =>
    (∀ operator, operator ∈ operators.head? → Fits operator first) ∧ TermsFit first (operators.zip rest)

def TowerFits : List Amount → Prop
  | base :: next :: rest =>
    TowerFits (next :: rest) ∧ ∀ power, power ∈ tower? (base :: next :: rest) → Fits .raise power
  | _ => True

theorem termsFit_cons_iff {term : Operator × Amount} {rest : List (Operator × Amount)} {known next : Amount}
    (combined : combine? term.1 known term.2 = some next) :
    TermsFit known (term :: rest) ↔ Fits term.1 next ∧ TermsFit next rest := by
  simp only [TermsFit, combined, Option.mem_def, Option.some.injEq, forall_eq']

private theorem fits_forward (operator : Operator) (amount : Amount) :
    Fits operator.forward amount ↔ Fits operator amount := by
  unfold Fits
  rw [Operator.precedence_forward]

instance decidableTermsFit :
    ∀ (terms : List (Operator × Amount)) (known : Amount), Decidable (TermsFit known terms)
  | [], _ => isTrue trivial
  | term :: rest, known =>
    have := decidableTermsFit rest
    inferInstanceAs (Decidable
      (∀ next, next ∈ combine? term.1 known term.2 → Fits term.1 next ∧ TermsFit next rest))

instance (operators : List Operator) (amounts : List Amount) : Decidable (ChainFits operators amounts) :=
  match amounts with
  | [] => isTrue trivial
  | first :: rest =>
    inferInstanceAs (Decidable
      ((∀ operator, operator ∈ operators.head? → Fits operator first) ∧ TermsFit first (operators.zip rest)))

instance decidableTowerFits : ∀ amounts : List Amount, Decidable (TowerFits amounts)
  | [] => isTrue trivial
  | [_] => isTrue trivial
  | base :: next :: rest =>
    have := decidableTowerFits (next :: rest)
    inferInstanceAs (Decidable
      (TowerFits (next :: rest) ∧ ∀ power, power ∈ tower? (base :: next :: rest) → Fits .raise power))

end Amount

namespace Expression

def OperandsFit (values : Valuation) : Expression → Prop
  | .chain _ operands operators =>
    ∀ amounts, amounts ∈ amounts? values operands → Amount.ChainFits operators amounts
  | .tower operands => ∀ amounts, amounts ∈ amounts? values operands → Amount.TowerFits amounts
  | _ => True

/-- Whatever an expression and its parts make on the way fits. -/
inductive InRange (values : Valuation) : Expression → Prop where
  | of_parts {expression : Expression}
      (parts : ∀ operand, operand ∈ expression.parts → InRange values operand)
      (fits : expression.OperandsFit values) : InRange values expression

variable {values : Valuation}

theorem inRange_iff (expression : Expression) :
    expression.InRange values ↔
      (∀ operand, operand ∈ expression.parts → operand.InRange values) ∧ expression.OperandsFit values := by
  constructor
  · rintro ⟨parts, fits⟩
    exact ⟨parts, fits⟩
  · rintro ⟨parts, fits⟩
    exact .of_parts parts fits

theorem operandsFit_chain_iff {precedence : Precedence} {operands : List Expression} {operators : List Operator}
    {amounts : List Amount} (found : amounts? values operands = some amounts) :
    (Expression.chain precedence operands operators).OperandsFit values ↔ Amount.ChainFits operators amounts := by
  simp only [OperandsFit, found, Option.mem_def, Option.some.injEq, forall_eq']

theorem operandsFit_tower_iff {operands : List Expression} {amounts : List Amount}
    (found : amounts? values operands = some amounts) :
    (Expression.tower operands).OperandsFit values ↔ Amount.TowerFits amounts := by
  simp only [OperandsFit, found, Option.mem_def, Option.some.injEq, forall_eq']

theorem inRange_negation_iff (operand : Expression) :
    (Expression.negation operand).InRange values ↔ operand.InRange values := by
  rw [inRange_iff]
  change (∀ part, part ∈ [operand] → _) ∧ True ↔ _
  rw [and_true, List.forall_mem_singleton]

mutual

def decideInRange (values : Valuation) : (expression : Expression) → Decidable (expression.InRange values)
  | .quantity _ => isTrue (.of_parts (fun _ member => by cases member) trivial)
  | .var _ => isTrue (.of_parts (fun _ member => by cases member) trivial)
  | .output _ => isTrue (.of_parts (fun _ member => by cases member) trivial)
  | .chain precedence operands operators =>
    have := decideInRangeAll values operands
    decidable_of_iff ((∀ operand, operand ∈ operands → operand.InRange values) ∧
      ∀ amounts, amounts ∈ amounts? values operands → Amount.ChainFits operators amounts)
      (inRange_iff (.chain precedence operands operators)).symm
  | .tower operands =>
    have := decideInRangeAll values operands
    decidable_of_iff ((∀ operand, operand ∈ operands → operand.InRange values) ∧
      ∀ amounts, amounts ∈ amounts? values operands → Amount.TowerFits amounts)
      (inRange_iff (.tower operands)).symm
  | .negation operand =>
    have := decideInRange values operand
    decidable_of_iff (operand.InRange values) (inRange_negation_iff operand).symm

def decideInRangeAll (values : Valuation) :
    (operands : List Expression) → Decidable (∀ operand, operand ∈ operands → operand.InRange values)
  | [] => isTrue fun _ member => by cases member
  | first :: rest =>
    have := decideInRange values first
    have := decideInRangeAll values rest
    decidable_of_iff (first.InRange values ∧ ∀ operand, operand ∈ rest → operand.InRange values)
      List.forall_mem_cons.symm

end

instance (expression : Expression) : Decidable (expression.InRange values) :=
  decideInRange values expression

end Expression

namespace Evaluation

open Amount (ChainFits TermsFit TowerFits)

variable {evaluate : Expression → Except EvaluationError Expression} {operands : List Expression}
  {operators : List Operator} {amounts : List Amount} {total : Amount} {quantity : Quantity}

/-! ### Operands that make an amount -/

def Computes (evaluate : Expression → Except EvaluationError Expression) (expression : Expression)
    (amount : Amount) : Prop :=
  UnlessOverflow (· = .quantity amount.quantity) (evaluate expression)

def Settles (evaluate : Expression → Except EvaluationError Expression) (expression : Expression)
    (amount : Amount) : Prop :=
  evaluate expression = .ok (.quantity amount.quantity)

private theorem Computes.eq_of_quantity {expression : Expression} {amount : Amount}
    (computes : Computes evaluate expression amount) (evaluated : evaluate expression = .ok (.quantity quantity)) :
    quantity = amount.quantity := by
  unfold Computes at computes
  rw [evaluated] at computes
  exact Expression.quantity.inj computes

private theorem quantities_of_computes {quantities : List Quantity}
    (each : List.Forall₂ (Computes evaluate) operands amounts)
    (evaluated : List.Forall₂ (fun operand quantity => evaluate operand = .ok (.quantity quantity)) operands
      quantities) : quantities = amounts.map Amount.quantity := by
  induction each generalizing quantities with
  | nil =>
      cases evaluated
      rfl
  | cons first _ ih =>
      cases evaluated with
      | cons firstEvaluated others =>
          rw [List.map_cons, first.eq_of_quantity firstEvaluated, ih others]

/-! ### Chains -/

theorem foldValues_eq_some_iff {terms : List (Operator × Amount)} {known : Amount}
    (totalled : Amount.total? (some known) terms = some total) :
    foldValues (some known.quantity) (terms.map fun term => (term.1, term.2.quantity)) = .ok (some quantity) ↔
      quantity = total.quantity ∧ TermsFit known terms := by
  induction terms generalizing known with
  | nil =>
      rw [← Option.some.inj totalled]
      constructor
      · intro made
        exact ⟨(Option.some.inj (Except.ok.inj made)).symm, trivial⟩
      · rintro ⟨rfl, _⟩
        rfl
  | cons term rest ih =>
      rw [Amount.total?_cons_some] at totalled
      obtain ⟨next, combined, later⟩ := Option.bind_eq_some_iff.mp totalled
      have step : ∀ made, term.1.apply known.quantity term.2.quantity = .ok made ↔
          made = next.quantity ∧ Amount.Fits term.1 next :=
        fun made => (Amount.apply_orOverflow combined).eq_ok_iff
      rw [Amount.termsFit_cons_iff combined]
      constructor
      · intro made
        obtain ⟨first, applied, others⟩ := bind_eq_ok_iff.mp made
        obtain ⟨rfl, inside⟩ := (step first).mp applied
        obtain ⟨isTotal, fits⟩ := (ih later).mp others
        exact ⟨isTotal, inside, fits⟩
      · rintro ⟨isTotal, inside, fits⟩
        exact bind_eq_ok_iff.mpr
          ⟨next.quantity, (step _).mpr ⟨rfl, inside⟩, (ih later).mpr ⟨isTotal, fits⟩⟩

theorem fits_leading_iff {amount : Amount} :
    Amount.Fits (leading operators) amount ↔
      ∀ operator, operator ∈ operators.head? → Amount.Fits operator amount := by
  cases operators with
  | nil => exact iff_of_true trivial fun operator isHead => by cases isHead
  | cons first rest =>
      change Amount.Fits first.forward amount ↔ _
      rw [Amount.fits_forward, List.head?_cons]
      constructor
      · intro fits operator isHead
        rw [← Option.some.inj isHead]
        exact fits
      · exact fun all => all first rfl

/-- The operands of a chain are folded from what leaves the first one unchanged. -/
theorem foldValues_none_eq_some_iff (noPower : (leading operators).precedence ≠ .power)
    (totalled : Amount.chain? operators amounts = some total) :
    foldValues none ((leading operators :: operators).zip (amounts.map Amount.quantity)) = .ok (some quantity) ↔
      quantity = total.quantity ∧ ChainFits operators amounts := by
  cases amounts with
  | nil => cases totalled
  | cons first rest =>
      have taken := Amount.combine?_neutral (forward_leading operators) noPower first
      have all : Amount.total? (some (Amount.neutral (leading operators) first))
          ((leading operators, first) :: operators.zip rest) = some total := by
        rw [Amount.total?_cons_some, taken]
        exact totalled
      have fits : TermsFit (Amount.neutral (leading operators) first)
            ((leading operators, first) :: operators.zip rest) ↔
          ChainFits operators (first :: rest) := by
        rw [Amount.termsFit_cons_iff taken, fits_leading_iff]
        rfl
      rw [List.map_cons, List.zip_cons_cons, List.zip_map_right, ← fits, ← foldValues_eq_some_iff all,
        Amount.quantity_neutral]
      rfl

/-- A chain is evaluated to what its operands make if they are evaluated and what they make fits. -/
theorem foldChain_settles_iff {precedence : Precedence} (noPower : precedence ≠ .power)
    (single : ∀ operator, operator ∈ operators → operator.precedence = precedence)
    (count : operands.length = operators.length + 1)
    (tidy : ∀ operand, operand ∈ operands → ∀ result, evaluate operand = .ok result → result.Tidy)
    (each : List.Forall₂ (Computes evaluate) operands amounts)
    (totalled : Amount.chain? operators amounts = some total) :
    foldChain evaluate operators operands = .ok (.quantity quantity) ↔
      quantity = total.quantity ∧ List.Forall₂ (Settles evaluate) operands amounts ∧
        ChainFits operators amounts := by
  have folded := @foldValues_none_eq_some_iff _ _ _ quantity (leading_single noPower single).1 totalled
  rw [foldChain_eq_quantity_iff_operands count tidy]
  constructor
  · rintro ⟨quantities, evaluated, made⟩
    have same := quantities_of_computes each evaluated
    subst same
    obtain ⟨isTotal, fits⟩ := folded.mp made
    rw [List.forall₂_map_right_iff] at evaluated
    exact ⟨isTotal, evaluated, fits⟩
  · rintro ⟨isTotal, settles, fits⟩
    refine ⟨amounts.map Amount.quantity, ?_, folded.mpr ⟨isTotal, fits⟩⟩
    rw [List.forall₂_map_right_iff]
    exact settles

/-! ### Towers -/

/-- A tower is evaluated to what its operands make if they are evaluated and what they make fits. -/
theorem evaluateTower_settles_iff (each : List.Forall₂ (Computes evaluate) operands amounts)
    (raised : Amount.tower? amounts = some total) :
    evaluateTower evaluate operands = .ok (.quantity quantity) ↔
      quantity = total.quantity ∧ List.Forall₂ (Settles evaluate) operands amounts ∧ TowerFits amounts := by
  induction each generalizing total quantity with
  | nil => cases raised
  | @cons base amount rest later first others ih =>
      cases others with
      | nil =>
          rw [evaluateTower_single_iff, ← Option.some.inj raised]
          constructor
          · intro evaluated
            have same := first.eq_of_quantity evaluated
            subst same
            exact ⟨rfl, .cons evaluated .nil, trivial⟩
          · rintro ⟨rfl, settles, _⟩
            exact (List.forall₂_cons.mp settles).1
      | cons =>
          obtain ⟨exponent, powered, combined⟩ := Option.bind_eq_some_iff.mp raised
          have combined : Amount.combine? .raise amount exponent = some total := combined
          have step : amount.quantity.raise exponent.quantity = .ok quantity ↔
              quantity = total.quantity ∧ Amount.Fits .raise total :=
            (Amount.apply_orOverflow combined).eq_ok_iff
          rw [evaluateTower_cons_iff (List.cons_ne_nil _ _)]
          constructor
          · rintro ⟨power, powerMade, value, evaluated, made⟩
            obtain ⟨rfl, settles, fits⟩ := (ih powered).mp powerMade
            have same := first.eq_of_quantity evaluated
            subst same
            obtain ⟨isTotal, inside⟩ := step.mp made
            refine ⟨isTotal, .cons evaluated settles, fits, fun power found => ?_⟩
            rw [Option.mem_def, raised] at found
            rw [← Option.some.inj found]
            exact inside
          · rintro ⟨isTotal, settles, fits, inside⟩
            obtain ⟨evaluated, settlesLater⟩ := List.forall₂_cons.mp settles
            exact ⟨exponent.quantity, (ih powered).mpr ⟨rfl, settlesLater, fits⟩, amount.quantity, evaluated,
              step.mpr ⟨isTotal, inside total raised⟩⟩

/-! ### Expressions -/

private theorem evaluate_tidy {workspace : Workspace} {expression result : Expression}
    (evaluated : expression.evaluate workspace = .ok result) : result.Tidy :=
  within_tidy evaluated

/-- Operands that are evaluated to quantities are so within a depth that is enough for all of them. -/
theorem exists_depth_within (workspace : Workspace) (operands : List Expression) :
    ∃ depth, ∀ operand, operand ∈ operands → ∀ value, operand.evaluate workspace = .ok (.quantity value) →
      within workspace depth [] operand = .ok (.quantity value) := by
  have each : ∀ operand, operand ∈ operands → ∃ depth, ∀ deeper, depth ≤ deeper →
      ∀ value, operand.evaluate workspace = .ok (.quantity value) →
        within workspace deeper [] operand = .ok (.quantity value) := by
    intro operand _
    refine ⟨sufficientDepth workspace operand, fun deeper deep value evaluated => ?_⟩
    have refines := within_refines workspace deep [] operand
    change Refines (operand.evaluate workspace) _ at refines
    rw [evaluated] at refines
    exact refines.eq_of_ne fun endless => by cases endless
  obtain ⟨depth, deepEnough⟩ := exists_depth_forall operands each
  exact ⟨depth, fun operand member => deepEnough operand member depth (Nat.le_refl depth)⟩

private theorem exists_within_succ {workspace : Workspace} {expression : Expression}
    (evaluated : expression.evaluate workspace = .ok (.quantity quantity)) :
    ∃ depth, within workspace (depth + 1) [] expression = .ok (.quantity quantity) := by
  unfold Expression.evaluate at evaluated
  cases enough : sufficientDepth workspace expression with
  | zero =>
      rw [enough] at evaluated
      cases evaluated
  | succ depth =>
      rw [enough] at evaluated
      exact ⟨depth, evaluated⟩

theorem evaluate_chain_eq_quantity_iff {workspace : Workspace} {precedence : Precedence} :
    (Expression.chain precedence operands operators).evaluate workspace = .ok (.quantity quantity) ↔
      foldChain (Expression.evaluate workspace) operators operands = .ok (.quantity quantity) := by
  constructor
  · intro evaluated
    obtain ⟨depth, folded⟩ := exists_within_succ evaluated
    exact foldChain_eq_quantity_of_imp (fun operand _ result => within_tidy) (fun operand _ result => evaluate_tidy)
      (fun operand _ value => evaluate_of_quantity) folded
  · intro folded
    obtain ⟨depth, deepEnough⟩ := exists_depth_within workspace operands
    have within : within workspace (depth + 1) [] (.chain precedence operands operators) = .ok (.quantity quantity) :=
      foldChain_eq_quantity_of_imp (fun operand _ result => evaluate_tidy) (fun operand _ result => within_tidy)
        deepEnough folded
    exact evaluate_of_quantity within

theorem evaluate_tower_eq_quantity_iff {workspace : Workspace} :
    (Expression.tower operands).evaluate workspace = .ok (.quantity quantity) ↔
      evaluateTower (Expression.evaluate workspace) operands = .ok (.quantity quantity) := by
  constructor
  · intro evaluated
    obtain ⟨depth, made⟩ := exists_within_succ evaluated
    exact evaluateTower_eq_quantity_of_imp (fun operand _ value => evaluate_of_quantity) made
  · intro made
    obtain ⟨depth, deepEnough⟩ := exists_depth_within workspace operands
    have within : within workspace (depth + 1) [] (.tower operands) = .ok (.quantity quantity) :=
      evaluateTower_eq_quantity_of_imp deepEnough made
    exact evaluate_of_quantity within

theorem evaluate_negation_eq_quantity_iff {workspace : Workspace} {operand : Expression} :
    (Expression.negation operand).evaluate workspace = .ok (.quantity quantity) ↔
      ∃ value, operand.evaluate workspace = .ok (.quantity value) ∧ quantity = -value := by
  constructor
  · intro evaluated
    obtain ⟨depth, negated⟩ := exists_within_succ evaluated
    obtain ⟨value, operandEvaluated, isNegated⟩ := map_negate_eq_quantity (fun result => within_tidy) negated
    exact ⟨value, evaluate_of_quantity operandEvaluated, isNegated⟩
  · rintro ⟨value, evaluated, rfl⟩
    obtain ⟨depth, operandEvaluated⟩ := exists_within_succ evaluated
    have within : within workspace (depth + 2) [] (.negation operand) = .ok (.quantity (-value)) :=
      map_eq_ok_iff.mpr ⟨.quantity value, operandEvaluated, rfl⟩
    exact evaluate_of_quantity within

private theorem forall₂_iff_of_mem {α β : Type} {before after : α → β → Prop} {holds : α → Prop} {xs : List α}
    {ys : List β} (related : List.Forall₂ before xs ys)
    (iff : ∀ x, x ∈ xs → ∀ y, before x y → (after x y ↔ holds x)) :
    List.Forall₂ after xs ys ↔ ∀ x, x ∈ xs → holds x := by
  induction related with
  | nil => exact iff_of_true .nil fun x member => (List.not_mem_nil member).elim
  | @cons x y _ _ first _ ih =>
      rw [List.forall₂_cons, List.forall_mem_cons, iff x List.mem_cons_self y first,
        ih fun later member => iff later (List.mem_cons_of_mem _ member)]

private theorem computes_of_amount? {workspace : Workspace} {expression : Expression} {amount : Amount}
    (wellFormed : expression.WellFormed) (means : expression.amount? workspace.valuation = some amount) :
    Computes (Expression.evaluate workspace) expression amount :=
  evaluate_of_amount? wellFormed means

private theorem computes_of_amounts? {workspace : Workspace}
    (parts : ∀ operand, operand ∈ operands → operand.WellFormed)
    (found : Expression.amounts? workspace.valuation operands = some amounts) :
    List.Forall₂ (Computes (Expression.evaluate workspace)) operands amounts :=
  forall₂_of_mem (Expression.amounts?_eq_some.mp found) fun operand member _ =>
    computes_of_amount? (parts operand member)

/-- What stands for an amount is evaluated to it exactly if all the products and powers are in range that are
computed on the way. -/
theorem evaluate_eq_amount_iff {workspace : Workspace} {expression : Expression}
    (wellFormed : expression.WellFormed) {amount : Amount}
    (means : expression.amount? workspace.valuation = some amount) :
    expression.evaluate workspace = .ok (.quantity amount.quantity) ↔
      expression.InRange workspace.valuation := by
  induction wellFormed generalizing amount with
  | quantity value =>
      have within : within workspace 1 [] (.quantity value) = .ok (.quantity value) := rfl
      have itself := evaluate_of_quantity within
      rw [Amount.ofQuantity?_eq_some.mp means] at itself ⊢
      exact iff_of_true itself (.of_parts (fun operand member => by cases member) trivial)
  | var name =>
      exact iff_of_true (settledAmount?_eq_some.mp means) (.of_parts (fun operand member => by cases member) trivial)
  | output index =>
      exact iff_of_true (settledAmount?_eq_some.mp means) (.of_parts (fun operand member => by cases member) trivial)
  | @chain precedence operands operators noPower single count _ parts ih =>
      obtain ⟨amounts, found, totalled⟩ := Option.bind_eq_some_iff.mp means
      have settles : List.Forall₂ (Settles (Expression.evaluate workspace)) operands amounts ↔
          ∀ operand, operand ∈ operands → operand.InRange workspace.valuation :=
        forall₂_iff_of_mem (Expression.amounts?_eq_some.mp found) fun operand member _ => ih operand member
      rw [evaluate_chain_eq_quantity_iff, foldChain_settles_iff noPower single count
        (fun operand _ result => evaluate_tidy) (computes_of_amounts? parts found) totalled, settles,
        Expression.inRange_iff, Expression.operandsFit_chain_iff found, eq_self, true_and]
      rfl
  | @tower operands _ parts ih =>
      obtain ⟨amounts, found, raised⟩ := Option.bind_eq_some_iff.mp means
      have settles : List.Forall₂ (Settles (Expression.evaluate workspace)) operands amounts ↔
          ∀ operand, operand ∈ operands → operand.InRange workspace.valuation :=
        forall₂_iff_of_mem (Expression.amounts?_eq_some.mp found) fun operand member _ => ih trivial operand member
      rw [evaluate_tower_eq_quantity_iff,
        evaluateTower_settles_iff (computes_of_amounts? (parts trivial) found) raised, settles, Expression.inRange_iff,
        Expression.operandsFit_tower_iff found, eq_self, true_and]
      rfl
  | @negation operand _ part ih =>
      obtain ⟨inner, found, rfl⟩ := Option.map_eq_some_iff.mp means
      rw [evaluate_negation_eq_quantity_iff, Expression.inRange_negation_iff, ← ih found]
      constructor
      · rintro ⟨value, evaluated, _⟩
        rw [evaluated, (computes_of_amount? part found).eq_of_quantity evaluated]
      · intro evaluated
        exact ⟨inner.quantity, evaluated, rfl⟩

/-- What stands for an amount is evaluated to it or overflows, and its amounts alone tell which. -/
theorem evaluate_eq_ite {workspace : Workspace} {expression : Expression} (wellFormed : expression.WellFormed)
    {amount : Amount} (means : expression.amount? workspace.valuation = some amount) :
    expression.evaluate workspace =
      if expression.InRange workspace.valuation then .ok (.quantity amount.quantity) else .error .overflow := by
  have settles := evaluate_eq_amount_iff wellFormed means
  split
  · rename_i inRange
    exact settles.mpr inRange
  · rename_i outside
    have computes := computes_of_amount? wellFormed means
    unfold Computes at computes
    cases evaluated : expression.evaluate workspace with
    | ok result =>
        rw [evaluated] at computes settles
        have isAmount : result = .quantity amount.quantity := computes
        exact absurd (settles.mp (congrArg Except.ok isAmount)) outside
    | error cause =>
        rw [evaluated] at computes
        have isOverflow : cause = .overflow := computes
        exact congrArg Except.error isOverflow

end Evaluation

end QuantityCalculator
