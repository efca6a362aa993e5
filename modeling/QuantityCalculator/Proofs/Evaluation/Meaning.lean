import QuantityCalculator.Proofs.Evaluation.Value
import QuantityCalculator.Proofs.Expression.Meaning

/-!
Evaluation keeps what an expression stands for.

If the operands of an expression are evaluated to expressions that stand for the same amounts, then so is
the expression, or an exponent leaves its range on the way.  A chain may take up its known operands out of
order, because neither sums nor products depend on it.
-/

namespace QuantityCalculator

namespace Evaluation

open Expression (IsTerm joinSteps)

/-- A result that stands for an amount.  Where all is `known`, it is the quantity itself. -/
structure Renders (values : Valuation) (known : Prop) (amount : Amount) (result : Expression) : Prop where
  wellFormed : result.WellFormed
  tidy : result.Tidy
  meaning : result.amount? values = some amount
  settled : known → result = .quantity amount.quantity

variable {values : Valuation} {known : Prop} {total : Amount}
  {evaluate : Expression → Except EvaluationError Expression}

private theorem quantity_renders (amount : Amount) : Renders values known amount (.quantity amount.quantity) :=
  ⟨.quantity _ trivial, trivial, rfl, fun _ => rfl⟩

/-! ### Chains -/

/-- A chain under evaluation stands for a known amount, if there is one, and for the terms left over. -/
structure Holds (values : Valuation) (known : Prop) (front : Option Amount)
    (terms : List (Operator × Amount)) (folded : Folded) : Prop where
  front : folded.known = front.map Amount.quantity
  terms : List.Forall₂ (IsTerm values) folded.residual terms
  tidy : ∀ step, step ∈ folded.residual → step.2.Tidy
  settled : known → folded.residual = []

/-- Without a known amount, the first term has to be taken up as it is. -/
def StartsForward (front : Option Amount) (terms : List (Operator × Amount)) : Prop :=
  front = none → ∀ term, terms.head? = some term → term.1.forward = term.1

theorem getD_neutral (front : Option Amount) (operator : Operator) (amount : Amount) :
    (front.map Amount.quantity).getD (operator.neutral amount.quantity) =
      (front.getD (Amount.neutral operator amount)).quantity := by
  cases front with
  | none => exact (Amount.quantity_neutral operator amount).symm
  | some amount => rfl

/-- What has been folded so far still makes the total, together with the terms to come. -/
def Reaches (values : Valuation) (known : Prop) (total : Amount)
    (coming : List (Operator × Amount)) (folded : Folded) : Prop :=
  ∃ front terms, Holds values known front terms folded ∧
    Amount.total? front (terms ++ coming) = some total ∧ StartsForward front (terms ++ coming) ∧
    ∃ precedence, precedence ≠ .power ∧ ∀ term, term ∈ terms ++ coming → term.1.precedence = precedence

private theorem take_reaches {folded : Folded} {term : Operator × Amount} {coming : List (Operator × Amount)}
    (reaches : Reaches values known total (term :: coming) folded) {result : Expression}
    (renders : Renders values known term.2 result) :
    UnlessOverflow (Reaches values known total coming) (folded.take term.1 result) := by
  obtain ⟨front, terms, holds, totalled, forward, precedence, noPower, single⟩ := reaches
  have moved : (terms ++ term :: coming).Perm (term :: (terms ++ coming)) := List.perm_middle
  have later : ∀ other, other ∈ terms ++ coming → other.1.precedence = precedence :=
    fun other member => single other (moved.mem_iff.mpr (List.mem_cons_of_mem _ member))
  have left : result.value? = none → UnlessOverflow (Reaches values known total coming)
      (.ok { folded with residual := folded.residual ++ [(term.1, result)] }) := by
    intro open_
    have isTerm : IsTerm values (term.1, result) term := ⟨rfl, renders.wellFormed, renders.meaning⟩
    refine ⟨front, terms ++ [term], ⟨holds.front, ?_, ?_, ?_⟩, ?_, ?_, precedence, noPower, ?_⟩
    · exact List.rel_append holds.terms (.cons isTerm .nil)
    · intro step member
      rcases List.mem_append.mp member with before | last
      · exact holds.tidy step before
      · rw [List.mem_singleton.mp last]
        exact renders.tidy
    · intro isKnown
      rw [renders.settled isKnown] at open_
      cases open_
    · rwa [List.append_assoc]
    · rwa [List.append_assoc]
    · rwa [List.append_assoc]
  cases result with
  | quantity value =>
      have isAmount : value = term.2.quantity := Amount.ofQuantity?_eq_some.mp renders.meaning
      rw [Amount.total?_perm noPower single moved] at totalled
      obtain ⟨next, combined, rest⟩ := Option.bind_eq_some_iff.mp totalled
      change UnlessOverflow _ (term.1.apply (folded.known.getD (term.1.neutral value)) value >>= _)
      rw [isAmount, holds.front, getD_neutral]
      apply UnlessOverflow.bind (Amount.apply_unlessOverflow combined)
      rintro quantity rfl
      exact ⟨some next, terms, ⟨rfl, holds.terms, holds.tidy, holds.settled⟩, rest, fun missing => (by cases missing),
        precedence, noPower, later⟩
  | var name => exact left rfl
  | output index => exact left rfl
  | chain precedence operands operators => exact left rfl
  | tower operands => exact left rfl
  | negation operand => exact left rfl

structure Evaluates (values : Valuation) (known : Prop)
    (evaluate : Expression → Except EvaluationError Expression) (step : Operator × Expression)
    (term : Operator × Amount) : Prop where
  operator : step.1 = term.1
  renders : UnlessOverflow (Renders values known term.2) (evaluate step.2)

private theorem foldlM_reaches {steps : List (Operator × Expression)} {coming : List (Operator × Amount)}
    (evaluates : List.Forall₂ (Evaluates values known evaluate) steps coming) {folded : Folded}
    (reaches : Reaches values known total coming folded) :
    UnlessOverflow (Reaches values known total []) (steps.foldlM (foldStep evaluate) folded) := by
  induction evaluates generalizing folded with
  | nil => exact reaches
  | @cons step term rest later first _ ih =>
      rw [List.foldlM_cons]
      apply UnlessOverflow.bind
      · apply UnlessOverflow.bind first.renders
        intro result renders
        rw [first.operator]
        exact take_reaches reaches renders
      · intro next nextReaches
        exact ih nextReaches

private theorem rejoin_renders {precedence : Precedence} (noPower : precedence ≠ .power) {first : Expression}
    {front : Amount} (firstWellFormed : first.WellFormed) (firstTidy : first.Tidy)
    (firstMeans : first.amount? values = some front) {steps : List (Operator × Expression)}
    {terms : List (Operator × Amount)} (areTerms : List.Forall₂ (IsTerm values) steps terms)
    (single : ∀ term, term ∈ terms → term.1.precedence = precedence)
    (totalled : Amount.total? (some front) terms = some total) (open_ : ¬known) :
    UnlessOverflow (Renders values known total)
      (rejoin (first :: steps.map Prod.snd) (steps.map Prod.fst)) := by
  have stepsSingle : ∀ step, step ∈ steps → step.1.precedence = precedence := by
    intro step member
    obtain ⟨term, termMember, isTerm⟩ := Expression.exists_term areTerms member
    rw [isTerm.operator]
    exact single term termMember
  have parts : ∀ step, step ∈ steps → step.2.WellFormed := by
    intro step member
    obtain ⟨term, _, isTerm⟩ := Expression.exists_term areTerms member
    exact isTerm.wellFormed
  have unzipped : (steps.map Prod.fst).zip (steps.map Prod.snd) = steps := by
    rw [List.zip_map']
    exact List.map_id steps
  have joined : Expression.joinAll? (first :: steps.map Prod.snd) (steps.map Prod.fst) =
      some (joinSteps first ((steps.map Prod.fst).zip (steps.map Prod.snd))) := by
    apply Expression.joinAll?_eq_some noPower
    · intro operator member
      obtain ⟨step, stepMember, rfl⟩ := List.mem_map.mp member
      exact stepsSingle step stepMember
    · rw [List.length_map, List.length_map]
    · exact firstWellFormed
    · intro operand member
      obtain ⟨step, stepMember, rfl⟩ := List.mem_map.mp member
      exact parts step stepMember
  unfold rejoin
  rw [joined, unzipped]
  refine ⟨?_, Expression.joinSteps_tidy steps firstTidy, ?_, fun isKnown => absurd isKnown open_⟩
  · apply Expression.joinSteps_formed _ firstWellFormed parts
    intro step member
    rw [stepsSingle step member]
    exact noPower
  · rw [Expression.amount?_joinSteps noPower stepsSingle firstWellFormed firstMeans areTerms, totalled]

private theorem expression_renders {folded : Folded} (reaches : Reaches values known total [] folded) :
    UnlessOverflow (Renders values known total) folded.expression := by
  obtain ⟨front, terms, holds, totalled, forward, precedence, noPower, single⟩ := reaches
  rw [List.append_nil] at totalled forward single
  obtain ⟨knownQuantity, residual⟩ := folded
  have frontEq : knownQuantity = front.map Amount.quantity := holds.front
  have areTerms : List.Forall₂ (IsTerm values) residual terms := holds.terms
  have unknown : residual ≠ [] → ¬known := fun nonempty isKnown => nonempty (holds.settled isKnown)
  subst frontEq
  cases front with
  | some front =>
      cases residual with
      | nil =>
          cases areTerms
          rw [← Option.some.inj totalled]
          exact quantity_renders front
      | cons step rest =>
          exact rejoin_renders noPower (.quantity _ trivial) trivial rfl areTerms single totalled
            (unknown (List.cons_ne_nil _ _))
  | none =>
      cases areTerms with
      | nil => cases totalled
      | @cons step term rest later first others =>
          have termForward := forward rfl term rfl
          have termNoPower : term.1.precedence ≠ .power := by
            rw [single term List.mem_cons_self]
            exact noPower
          rw [Amount.total?_none_cons termForward termNoPower] at totalled
          exact rejoin_renders noPower first.wellFormed (holds.tidy step List.mem_cons_self) first.amount
            others (fun other member => single other (List.mem_cons_of_mem _ member)) totalled
            (unknown (List.cons_ne_nil _ _))

private theorem zip_evaluates {operands : List Expression} {amounts : List Amount}
    (each : List.Forall₂
      (fun operand amount => UnlessOverflow (Renders values known amount) (evaluate operand)) operands amounts)
    (operators : List Operator) :
    List.Forall₂ (Evaluates values known evaluate) (operators.zip operands) (operators.zip amounts) := by
  induction each generalizing operators with
  | nil =>
      rw [List.zip_nil_right, List.zip_nil_right]
      exact .nil
  | cons renders _ ih =>
      cases operators with
      | nil => exact .nil
      | cons operator others => exact .cons ⟨rfl, renders⟩ (ih others)

theorem forward_leading (operators : List Operator) :
    (leading operators).forward = leading operators := by
  cases operators with
  | nil => rfl
  | cons first _ => cases first <;> rfl

theorem leading_single {precedence : Precedence} (noPower : precedence ≠ .power)
    {operators : List Operator}
    (single : ∀ operator, operator ∈ operators → operator.precedence = precedence) :
    (leading operators).precedence ≠ .power ∧
      ∀ operator, operator ∈ leading operators :: operators →
        operator.precedence = (leading operators).precedence := by
  cases operators with
  | nil =>
      refine ⟨by decide, fun operator member => ?_⟩
      rw [List.mem_singleton.mp member]
  | cons first rest =>
      have firstIs := single first List.mem_cons_self
      have leadingIs : (leading (first :: rest)).precedence = precedence :=
        (Operator.precedence_forward first).trans firstIs
      refine ⟨by rw [leadingIs]; exact noPower, fun operator member => ?_⟩
      rcases List.mem_cons.mp member with same | later
      · rw [same]
      · rw [leadingIs]
        exact single operator later

/-- A chain is evaluated to what its operands add up or multiply to. -/
theorem foldChain_renders {precedence : Precedence} {operators : List Operator}
    {operands : List Expression} {amounts : List Amount} (noPower : precedence ≠ .power)
    (single : ∀ operator, operator ∈ operators → operator.precedence = precedence)
    (each : List.Forall₂
      (fun operand amount => UnlessOverflow (Renders values known amount) (evaluate operand)) operands amounts)
    (totalled : Amount.chain? operators amounts = some total) :
    UnlessOverflow (Renders values known total) (foldChain evaluate operators operands) := by
  obtain ⟨leadingNoPower, allSingle⟩ := leading_single noPower single
  have start : Reaches values known total ((leading operators :: operators).zip amounts) Folded.start := by
    refine ⟨none, [], ⟨rfl, .nil, fun _ member => (List.not_mem_nil member).elim, fun _ => rfl⟩, ?_, ?_,
      (leading operators).precedence, leadingNoPower, ?_⟩
    · cases amounts with
      | nil => cases totalled
      | cons first rest =>
          change Amount.total? none ((leading operators, first) :: operators.zip rest) = some total
          rw [Amount.total?_none_cons (forward_leading operators) leadingNoPower]
          exact totalled
    · intro _ term isHead
      cases amounts with
      | nil => cases isHead
      | cons first rest =>
          rw [← Option.some.inj isHead]
          exact forward_leading operators
    · exact fun term member => allSingle term.1 (List.of_mem_zip member).1
  unfold foldChain
  apply UnlessOverflow.bind (foldlM_reaches (zip_evaluates each (leading operators :: operators)) start)
  intro folded reaches
  exact expression_renders reaches

/-! ### Towers -/

private theorem foldTower_renders {operands : List Expression} {amounts : List Amount} {exponent : Amount}
    (each : List.Forall₂
      (fun operand amount => UnlessOverflow (Renders values known amount) (evaluate operand)) operands amounts)
    (raised : amounts.foldlM (fun power base => base.raise? power) exponent = some total) :
    UnlessOverflow (fun result => result = some total.quantity ∨ (result = none ∧ ¬known))
      (foldTower evaluate exponent.quantity operands) := by
  induction each generalizing exponent with
  | nil =>
      rw [← Option.some.inj raised]
      exact Or.inl rfl
  | @cons operand base rest later first _ ih =>
      rw [List.foldlM_cons] at raised
      obtain ⟨power, powered, others⟩ := Option.bind_eq_some_iff.mp raised
      unfold foldTower
      apply UnlessOverflow.bind first
      intro result renders
      have unresolved : result.value? = none →
          UnlessOverflow (fun result => result = some total.quantity ∨ (result = none ∧ ¬known))
            (.ok none) := by
        intro open_
        refine Or.inr ⟨rfl, fun isKnown => ?_⟩
        rw [renders.settled isKnown] at open_
        cases open_
      cases result with
      | quantity value =>
          have isAmount : value = base.quantity := Amount.ofQuantity?_eq_some.mp renders.meaning
          rw [isAmount]
          have combined : Amount.combine? .raise base exponent = some power := powered
          apply UnlessOverflow.bind (Amount.apply_unlessOverflow combined)
          rintro quantity rfl
          exact ih others
      | _ => exact unresolved rfl

/-- A tower is evaluated to the power that its operands make, or stays as it is. -/
theorem evaluateTower_renders {operands : List Expression} {amounts : List Amount}
    (parts : ∀ operand, operand ∈ operands → operand.WellFormed)
    (found : Expression.amounts? values operands = some amounts)
    (each : List.Forall₂
      (fun operand amount => UnlessOverflow (Renders values known amount) (evaluate operand)) operands amounts)
    (raised : Amount.tower? amounts = some total) :
    UnlessOverflow (Renders values known total) (evaluateTower evaluate operands) := by
  have asItIs : ¬known → Renders values known total (.tower operands) := by
    intro unknown
    refine ⟨.tower trivial fun _ => parts, trivial, ?_, fun isKnown => absurd isKnown unknown⟩
    simp only [Expression.amount?, found, Option.bind_some, raised]
  have eachReversed := List.rel_reverse each
  unfold evaluateTower
  cases reversed : operands.reverse with
  | nil =>
      rw [List.reverse_eq_nil_iff.mp reversed] at each
      cases each
      cases raised
  | cons last earlier =>
      rw [reversed] at eachReversed
      cases reversedAmounts : amounts.reverse with
      | nil =>
          rw [reversedAmounts] at eachReversed
          cases eachReversed
      | cons exponent bases =>
          rw [reversedAmounts] at eachReversed
          have inOrder : amounts = bases.reverse ++ [exponent] := by
            rw [← List.reverse_reverse amounts, reversedAmounts, List.reverse_cons]
          rw [inOrder, Amount.tower?_append, List.reverse_reverse] at raised
          obtain ⟨first, rest⟩ := List.forall₂_cons.mp eachReversed
          apply UnlessOverflow.bind first
          intro result renders
          have unresolved : result.value? = none →
              UnlessOverflow (Renders values known total) (.ok (.tower operands)) := by
            intro open_
            apply asItIs
            intro isKnown
            rw [renders.settled isKnown] at open_
            cases open_
          cases result with
          | quantity value =>
              have isAmount : value = exponent.quantity :=
                Amount.ofQuantity?_eq_some.mp renders.meaning
              rw [isAmount]
              apply UnlessOverflow.bind (foldTower_renders rest raised)
              rintro power (rfl | ⟨rfl, unknown⟩)
              · exact quantity_renders total
              · exact asItIs unknown
          | _ => exact unresolved rfl

/-! ### Expressions -/

private theorem negate_renders {amount : Amount} {result : Expression}
    (renders : Renders values known amount result) : Renders values known (-amount) result.negate := by
  refine ⟨Expression.negate_formed renders.wellFormed, Expression.negate_tidy renders.tidy, ?_, ?_⟩
  · rw [Expression.amount?_negate renders.wellFormed, renders.meaning]
    rfl
  · intro isKnown
    rw [renders.settled isKnown]
    rfl

/-- If references and operands are evaluated to what they stand for, then so is the expression. -/
theorem within_succ_renders {workspace : Workspace} {depth : Nat} {active : List String}
    {expression : Expression} (wellFormed : expression.WellFormed)
    (means : expression.amount? values = some total)
    (reference : expression.IsReference →
      UnlessOverflow (Renders values known total) (within workspace (depth + 1) active expression))
    (part : ∀ operand, operand ∈ expression.parts → ∀ amount, operand.amount? values = some amount →
      UnlessOverflow (Renders values known amount) (within workspace depth active operand)) :
    UnlessOverflow (Renders values known total) (within workspace (depth + 1) active expression) := by
  cases wellFormed with
  | quantity value =>
      rw [Amount.ofQuantity?_eq_some.mp means]
      exact quantity_renders total
  | var name => exact reference trivial
  | output index => exact reference trivial
  | @chain precedence operands operators noPower single count _ parts =>
      obtain ⟨amounts, found, totalled⟩ := Option.bind_eq_some_iff.mp means
      exact foldChain_renders noPower single
        (forall₂_of_mem (Expression.amounts?_eq_some.mp found) part) totalled
  | @tower operands _ parts =>
      obtain ⟨amounts, found, raised⟩ := Option.bind_eq_some_iff.mp means
      exact evaluateTower_renders (parts trivial) found
        (forall₂_of_mem (Expression.amounts?_eq_some.mp found) part) raised
  | @negation operand _ _ =>
      obtain ⟨amount, found, rfl⟩ := Option.map_eq_some_iff.mp means
      have renders := part operand List.mem_cons_self amount found
      change UnlessOverflow _ ((within workspace depth active operand).map Expression.negate)
      cases evaluated : within workspace depth active operand with
      | error cause =>
          rw [evaluated] at renders
          exact renders
      | ok result =>
          rw [evaluated] at renders
          exact negate_renders renders

/-! ### Workspaces in which everything is known -/

def settledAmount? : Except EvaluationError Expression → Option Amount
  | .ok (.quantity value) => Amount.ofQuantity? value
  | _ => none

theorem settledAmount?_eq_some {outcome : Except EvaluationError Expression} {amount : Amount} :
    settledAmount? outcome = some amount ↔ outcome = .ok (.quantity amount.quantity) := by
  constructor
  · intro found
    cases outcome with
    | error cause => cases found
    | ok result =>
        cases result with
        | quantity value => rw [Amount.ofQuantity?_eq_some.mp found]
        | _ => cases found
  · rintro rfl
    rfl

end Evaluation

def Workspace.valuation (workspace : Workspace) : Valuation where
  var name := Evaluation.settledAmount? ((Expression.var name).evaluate workspace)
  output index := Evaluation.settledAmount? ((Expression.output index).evaluate workspace)

namespace Evaluation

/-- A depth that is enough for each of some operands is enough for all of them. -/
theorem exists_depth_forall {holds : Expression → Nat → Prop} (operands : List Expression)
    (each : ∀ operand, operand ∈ operands → ∃ depth, ∀ deeper, depth ≤ deeper → holds operand deeper) :
    ∃ depth, ∀ operand, operand ∈ operands → ∀ deeper, depth ≤ deeper → holds operand deeper := by
  induction operands with
  | nil => exact ⟨0, fun operand member => (List.not_mem_nil member).elim⟩
  | cons first rest ih =>
      obtain ⟨depth, atFirst⟩ := each first List.mem_cons_self
      obtain ⟨later, atRest⟩ := ih fun operand member => each operand (List.mem_cons_of_mem _ member)
      refine ⟨max depth later, fun operand member deeper le => ?_⟩
      rcases List.mem_cons.mp member with same | inRest
      · rw [same]
        exact atFirst deeper (by omega)
      · exact atRest operand inRest deeper (by omega)

private theorem reference_renders {workspace : Workspace} {expression : Expression}
    (isReference : expression.IsReference) {amount : Amount}
    (means : expression.amount? workspace.valuation = some amount) {deeper : Nat}
    (deep : sufficientDepth workspace expression ≤ deeper) :
    UnlessOverflow (Renders workspace.valuation True amount) (within workspace deeper [] expression) := by
  have evaluated : expression.evaluate workspace = .ok (.quantity amount.quantity) := by
    cases expression with
    | var name => exact settledAmount?_eq_some.mp means
    | output index => exact settledAmount?_eq_some.mp means
    | _ => exact isReference.elim
  have settled : within workspace (sufficientDepth workspace expression) [] expression ≠
      .error .endlessReference := by
    change expression.evaluate workspace ≠ _
    rw [evaluated]
    exact fun endless => by cases endless
  rw [within_eq_of_le workspace deep settled]
  change UnlessOverflow _ (expression.evaluate workspace)
  rw [evaluated]
  exact quantity_renders amount

private theorem exists_depth_of_parts {workspace : Workspace} {expression : Expression}
    (wellFormed : expression.WellFormed) (noReference : ¬expression.IsReference)
    (each : ∀ operand, operand ∈ expression.parts → ∃ depth, ∀ deeper, depth ≤ deeper →
      ∀ amount, operand.amount? workspace.valuation = some amount →
        UnlessOverflow (Renders workspace.valuation True amount) (within workspace deeper [] operand)) :
    ∃ depth, ∀ deeper, depth ≤ deeper →
      ∀ amount, expression.amount? workspace.valuation = some amount →
        UnlessOverflow (Renders workspace.valuation True amount)
          (within workspace deeper [] expression) := by
  obtain ⟨depth, deepEnough⟩ := exists_depth_forall expression.parts each
  refine ⟨depth + 1, fun deeper le amount means => ?_⟩
  obtain ⟨before, rfl⟩ := Nat.exists_eq_add_of_le' (Nat.le_trans (Nat.le_add_left 1 depth) le)
  exact within_succ_renders wellFormed means (fun isReference => absurd isReference noReference)
    fun operand member => deepEnough operand member before (by omega)

private theorem exists_depth_renders (workspace : Workspace) {expression : Expression}
    (wellFormed : expression.WellFormed) :
    ∃ depth, ∀ deeper, depth ≤ deeper →
      ∀ amount, expression.amount? workspace.valuation = some amount →
        UnlessOverflow (Renders workspace.valuation True amount)
          (within workspace deeper [] expression) := by
  induction wellFormed with
  | quantity value =>
      exact exists_depth_of_parts (.quantity value trivial) id fun operand member => by cases member
  | var name =>
      have isReference : (Expression.var name).IsReference := trivial
      exact ⟨_, fun deeper deep amount means => reference_renders isReference means deep⟩
  | output index =>
      have isReference : (Expression.output index).IsReference := trivial
      exact ⟨_, fun deeper deep amount means => reference_renders isReference means deep⟩
  | chain noPower single count spliced parts ih =>
      exact exists_depth_of_parts (.chain noPower single count spliced parts) id ih
  | tower isAtom parts ih => exact exists_depth_of_parts (.tower isAtom parts) id (ih trivial)
  | negation tidy part ih =>
      exact exists_depth_of_parts (.negation tidy part) id fun operand member =>
        List.mem_singleton.mp member ▸ ih

/-- What stands for an amount once all variables and results are taken for their values is evaluated to
it. -/
theorem evaluate_of_amount? {workspace : Workspace} {expression : Expression}
    (wellFormed : expression.WellFormed) {amount : Amount}
    (means : expression.amount? workspace.valuation = some amount) :
    UnlessOverflow (· = .quantity amount.quantity) (expression.evaluate workspace) := by
  obtain ⟨depth, deepEnough⟩ := exists_depth_renders workspace wellFormed
  have renders := deepEnough depth (Nat.le_refl depth) amount means
  rw [evaluate_eq_within renders.settled]
  exact renders.imp fun result isRendered => isRendered.settled trivial

end Evaluation

end QuantityCalculator
