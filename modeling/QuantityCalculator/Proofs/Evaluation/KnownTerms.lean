import QuantityCalculator.Proofs.Evaluation.Flat
import QuantityCalculator.Proofs.Expression.Flat

/-!
Known terms of evaluated chains.

The operands of a chain that are known are folded into one term in front of the others.  An operand that is left
over as a chain of the same precedence is spliced in after that, with whatever quantities it holds.
-/

namespace QuantityCalculator

namespace Expression

def isQuantity (expression : Expression) : Bool :=
  expression.value?.isSome

/-- Which operands of a chain of a precedence are quantities.  Any other expression is an operand by itself. -/
def knownTerms (precedence : Precedence) (expression : Expression) : List Bool :=
  (Links.start precedence expression).operands.map isQuantity

variable {precedence : Precedence}

/-! ### Negation -/

private theorem isQuantity_negate {expression : Expression} (tidy : expression.Tidy) :
    expression.negate.isQuantity = expression.isQuantity := by
  cases expression with
  | chain inner operands operators => cases operands <;> rfl
  | negation operand => cases operand <;> first | rfl | exact tidy.elim
  | _ => rfl

private theorem map_isQuantity_negateFirst {operands : List Expression}
    (tidy : ∀ operand, operand ∈ operands → operand.Tidy) :
    (negateFirst operands).map isQuantity = operands.map isQuantity := by
  cases operands with
  | nil => rfl
  | cons first rest =>
      change first.negate.isQuantity :: _ = _
      rw [isQuantity_negate (tidy first List.mem_cons_self)]
      rfl

private theorem knownTerms_of_flat {expression : Expression} (flat : expression.isChainOf precedence = false) :
    expression.knownTerms precedence = [expression.isQuantity] := by
  rw [knownTerms, Links.start_of_flat flat]
  rfl

theorem knownTerms_chain (precedence : Precedence) (operands : List Expression) (operators : List Operator) :
    (chain precedence operands operators).knownTerms precedence = operands.map isQuantity := by
  rw [knownTerms, Links.start, if_pos rfl]

private theorem knownTerms_negate {expression : Expression} (regular : expression.Regular) :
    expression.negate.knownTerms precedence = expression.knownTerms precedence := by
  cases isChain : expression.isChainOf precedence with
  | false =>
      have negated := (isChainOf_negate (regular.tidy trivial) precedence).trans isChain
      rw [knownTerms_of_flat negated, knownTerms_of_flat isChain, isQuantity_negate (regular.tidy trivial)]
  | true =>
      cases regular with
      | @chain inner operands operators _ _ count _ parts =>
          have same : inner = precedence := of_decide_eq_true isChain
          subst same
          cases operands with
          | nil => cases count
          | cons first rest =>
              rw [negate, knownTerms_chain, knownTerms_chain]
              exact map_isQuantity_negateFirst fun operand member => (parts operand member).tidy trivial
      | _ => cases isChain

/-! ### Joining -/

theorem knownTerms_ne_nil {expression : Expression} (regular : expression.Regular) :
    expression.knownTerms precedence ≠ [] := by
  have count := (Links.start_formed precedence regular).count
  intro empty
  rw [List.map_eq_nil_iff.mp empty] at count
  cases count

private theorem Links.knownTerms_extend {links : Links} {operator : Operator} {expression : Expression}
    (linksRegular : links.Formed .regular precedence) (regular : expression.Regular) :
    (links.extend precedence operator expression).operands.map isQuantity =
      links.operands.map isQuantity ++ expression.knownTerms precedence := by
  cases regular with
  | @chain inner operands operators =>
      by_cases same : inner = precedence
      · simp only [Links.extend, knownTerms, Links.start, if_pos same, List.map_append]
      · simp only [Links.extend, knownTerms, Links.start, if_neg same, List.map_append]
  | @negation operand isTidy part =>
      have tidy := isTidy trivial
      have isFlat := isChainOf_of_tidy tidy precedence
      have noQuantity : operand.isQuantity = false := by
        cases operand with
        | quantity value => exact tidy.elim
        | _ => rfl
      have known : (negation operand).knownTerms precedence = [operand].map isQuantity := by
        rw [knownTerms_of_flat rfl, List.map_singleton, noQuantity]
        rfl
      rw [known, Links.extend]
      by_cases isSum : precedence = .sum
      · rw [if_pos isSum, Links.extend_of_flat isFlat (isNegation_of_tidy tidy), List.map_append]
      · rw [if_neg isSum, List.map_append,
          map_isQuantity_negateFirst fun other member => (linksRegular.parts other member).tidy trivial]
  | _ => simp only [Links.extend, knownTerms, Links.start, List.map_append]

private theorem knownTerms_join {left right : Expression} {operator : Operator} (leftRegular : left.Regular)
    (rightRegular : right.Regular) :
    (left.join operator right).knownTerms operator.precedence =
      left.knownTerms operator.precedence ++ right.knownTerms operator.precedence := by
  rw [join, knownTerms_chain]
  exact Links.knownTerms_extend (Links.start_formed operator.precedence leftRegular) rightRegular

/-- What is joined has the known terms of all of its operands, in their order. -/
theorem knownTerms_joinSteps {first : Expression} {steps : List (Operator × Expression)}
    (noPower : precedence ≠ .power) (single : ∀ step, step ∈ steps → step.1.precedence = precedence)
    (firstRegular : first.Regular) (parts : ∀ step, step ∈ steps → step.2.Regular) :
    (joinSteps first steps).knownTerms precedence =
      first.knownTerms precedence ++ steps.flatMap fun step => step.2.knownTerms precedence := by
  induction steps generalizing first with
  | nil => exact (List.append_nil _).symm
  | cons step rest ih =>
      have isOf := single step List.mem_cons_self
      have stepRegular := parts step List.mem_cons_self
      have joined : (first.join step.1 step.2).Regular := join_formed (isOf ▸ noPower) firstRegular stepRegular
      have known : (first.join step.1 step.2).knownTerms step.1.precedence = _ := knownTerms_join firstRegular stepRegular
      rw [isOf] at known
      change (joinSteps (first.join step.1 step.2) rest).knownTerms precedence = _
      rw [ih (fun later member => single later (List.mem_cons_of_mem _ member)) joined
        fun later member => parts later (List.mem_cons_of_mem _ member), known, List.flatMap_cons, List.append_assoc]

private theorem isChainOf_joinSteps {first : Expression} {steps : List (Operator × Expression)} (several : steps ≠ [])
    (single : ∀ step, step ∈ steps → step.1.precedence = precedence) :
    (joinSteps first steps).isChainOf precedence = true := by
  induction steps generalizing first with
  | nil => exact absurd rfl several
  | cons step rest ih =>
      cases rest with
      | nil => exact decide_eq_true (single step List.mem_cons_self)
      | cons second later =>
          exact ih (List.cons_ne_nil _ _) fun other member => single other (List.mem_cons_of_mem _ member)

end Expression

namespace Evaluation

open Expression (Regular isQuantity knownTerms joinSteps isChainOf)

variable {evaluate : Expression → Except EvaluationError Expression} {precedence : Precedence}

/-! ### Folding -/

/-- What is known is folded, and everything else is left over in its order. -/
theorem results_of_foldlM {steps : List (Operator × Expression)} {folded final : Folded}
    (all : steps.foldlM (foldStep evaluate) folded = .ok final) :
    ∃ results, List.Forall₂ (fun step result => evaluate step.2 = .ok result) steps results ∧
      final.known.isSome = (folded.known.isSome || results.any isQuantity) ∧
      final.residual = folded.residual ++
        ((steps.map Prod.fst).zip results).filter fun step => !step.2.isQuantity := by
  induction steps generalizing folded with
  | nil =>
      cases all
      exact ⟨[], .nil, (Bool.or_false _).symm, (List.append_nil _).symm⟩
  | cons step rest ih =>
      obtain ⟨next, stepped, others⟩ := foldlM_cons_eq_ok all
      obtain ⟨operand, evaluated, taken⟩ := foldStep_eq_ok stepped
      obtain ⟨results, each, known, residual⟩ := ih others
      refine ⟨operand :: results, .cons evaluated each, ?_⟩
      rw [known, residual, List.map_cons, List.zip_cons_cons, List.any_cons]
      cases operand with
      | quantity value =>
          obtain ⟨total, _, isNext⟩ := bind_eq_ok_iff.mp taken
          cases isNext
          exact ⟨by simp [isQuantity, Expression.value?], rfl⟩
      | _ =>
          cases taken
          exact ⟨rfl, List.append_assoc _ _ _⟩

/-- A chain is joined from what is left over, behind the quantity that is known. -/
theorem expression_joined {folded : Folded} {result : Expression} (noPower : precedence ≠ .power)
    (single : ∀ step, step ∈ folded.residual → step.1.precedence = precedence)
    (parts : ∀ step, step ∈ folded.residual → step.2.WellFormed) (ended : folded.expression = .ok result) :
    (∃ value, folded.known = some value ∧ result = joinSteps (.quantity value) folded.residual) ∨
      (folded.known = none ∧ ∃ operator first rest, folded.residual = (operator, first) :: rest ∧
        result = joinSteps first rest) := by
  obtain ⟨known, residual⟩ := folded
  have joined : ∀ {first : Expression} {steps : List (Operator × Expression)}, first.WellFormed →
      (∀ step, step ∈ steps → step ∈ residual) →
        rejoin (first :: steps.map Prod.snd) (steps.map Prod.fst) = .ok (joinSteps first steps) := by
    intro first steps firstWellFormed fromResidual
    have found : Expression.joinAll? (first :: steps.map Prod.snd) (steps.map Prod.fst) =
        some (joinSteps first ((steps.map Prod.fst).zip (steps.map Prod.snd))) := by
      refine Expression.joinAll?_eq_some noPower (fun operator member => ?_)
        (by rw [List.length_map, List.length_map]) firstWellFormed fun operand member => ?_
      · obtain ⟨step, inSteps, rfl⟩ := List.mem_map.mp member
        exact single step (fromResidual step inSteps)
      · obtain ⟨step, inSteps, rfl⟩ := List.mem_map.mp member
        exact parts step (fromResidual step inSteps)
    rw [rejoin, found, ← List.zip_of_prod rfl rfl]
  cases known with
  | some value =>
      refine Or.inl ⟨value, rfl, ?_⟩
      cases residual with
      | nil =>
          cases ended
          rfl
      | cons step rest =>
          have isResult := joined (.quantity value trivial) fun _ member => member
          exact Except.ok.inj (ended.symm.trans isResult)
  | none =>
      cases residual with
      | nil => cases ended
      | cons step rest =>
          have isResult := joined (parts step List.mem_cons_self) fun _ member => List.mem_cons_of_mem _ member
          exact Or.inr ⟨rfl, step.1, step.2, rest, rfl, Except.ok.inj (ended.symm.trans isResult)⟩

/-- The results of the operands of a chain leave at most one known term, at its front.  What is left over brings no
quantity along, but for the first operand, which may bring one at its own front if no operand is known. -/
structure LeavesOneKnown (precedence : Precedence) (results : List Expression) : Prop where
  later : ∀ result, result ∈ results.tail → result.isQuantity = false → true ∉ result.knownTerms precedence
  first : ∀ result, results.head? = some result → result.isQuantity = false →
    true ∉ (if results.any isQuantity then result.knownTerms precedence else (result.knownTerms precedence).tail)

def foldedTerms (precedence : Precedence) (results : List Expression) : List Bool :=
  (if results.any isQuantity then [true] else []) ++
    (results.filter fun result => !result.isQuantity).flatMap (knownTerms precedence)

theorem leavesOneKnown_iff {results : List Expression} (regular : ∀ result, result ∈ results → result.Regular) :
    LeavesOneKnown precedence results ↔ true ∉ (foldedTerms precedence results).tail := by
  have left : ∀ others : List Expression,
      true ∉ (others.filter fun result => !result.isQuantity).flatMap (knownTerms precedence) ↔
        ∀ result, result ∈ others → result.isQuantity = false → true ∉ result.knownTerms precedence := by
    intro others
    simp only [List.mem_flatMap, List.mem_filter, Bool.not_eq_true', not_exists, not_and, and_imp]
  cases results with
  | nil => exact ⟨fun _ => List.not_mem_nil, fun _ => ⟨fun _ member => (List.not_mem_nil member).elim, nofun⟩⟩
  | cons first rest =>
      cases known : first.isQuantity with
      | true =>
          have terms : foldedTerms precedence (first :: rest) =
              true :: (rest.filter fun result => !result.isQuantity).flatMap (knownTerms precedence) := by
            simp [foldedTerms, known]
          rw [terms, List.tail_cons, left]
          refine ⟨fun one => one.later, fun later => ⟨later, fun result isFirst unknown => ?_⟩⟩
          rw [← Option.some.inj isFirst, known] at unknown
          cases unknown
      | false =>
          have several : first.knownTerms precedence ≠ [] :=
            Expression.knownTerms_ne_nil (regular first List.mem_cons_self)
          have terms : (foldedTerms precedence (first :: rest)).tail =
              (if (first :: rest).any isQuantity then first.knownTerms precedence
                else (first.knownTerms precedence).tail) ++
              (rest.filter fun result => !result.isQuantity).flatMap (knownTerms precedence) := by
            simp only [foldedTerms, List.filter_cons, known, Bool.not_false, if_true, List.flatMap_cons]
            split
            · rfl
            · exact List.tail_append_of_ne_nil several
          rw [terms, List.mem_append, not_or, left]
          constructor
          · exact fun one => ⟨one.first first rfl known, one.later⟩
          · rintro ⟨front, later⟩
            refine ⟨later, fun result isFirst _ => ?_⟩
            rw [← Option.some.inj isFirst]
            exact front

theorem leavesOneKnown_of_flat {results : List Expression}
    (flat : ∀ result, result ∈ results → result.isChainOf precedence = false) :
    LeavesOneKnown precedence results := by
  have alone : ∀ result, result ∈ results → result.isQuantity = false → result.knownTerms precedence = [false] :=
    fun result member unknown => unknown ▸ Expression.knownTerms_of_flat (flat result member)
  constructor
  · intro result member unknown
    rw [alone result (List.mem_of_mem_tail member) unknown]
    decide
  · intro result isFirst unknown
    rw [alone result (List.mem_of_mem_head? isFirst) unknown]
    split <;> decide

/-! ### Chains -/

/-- The operands of a chain have results, and those that are not quantities are left over. -/
theorem results_of_chainSteps {operators : List Operator} {operands : List Expression} {final : Folded}
    (count : operands.length = operators.length + 1)
    (all : (chainSteps operators operands).foldlM (foldStep evaluate) Folded.start = .ok final) :
    ∃ results, List.Forall₂ (fun operand result => evaluate operand = .ok result) operands results ∧
      final.known.isSome = results.any isQuantity ∧
      final.residual.map Prod.snd = results.filter fun result => !result.isQuantity := by
  obtain ⟨results, each, known, residual⟩ := results_of_foldlM all
  have front : (chainSteps operators operands).map Prod.fst = leading operators :: operators :=
    List.map_fst_zip (Nat.le_of_eq count.symm)
  have behind : (chainSteps operators operands).map Prod.snd = operands :=
    List.map_snd_zip (Nat.le_of_eq count)
  have operandEach : List.Forall₂ (fun operand result => evaluate operand = .ok result) operands results := by
    rw [← behind, List.forall₂_map_left_iff]
    exact each
  have resultCount : results.length = (leading operators :: operators).length :=
    operandEach.length_eq.symm.trans count
  have second : ((leading operators :: operators).zip results).map Prod.snd = results :=
    List.map_snd_zip (Nat.le_of_eq resultCount)
  refine ⟨results, operandEach, known, ?_⟩
  conv_rhs => rw [← second, List.filter_map]
  rw [residual, front]
  rfl

private theorem regular_of_chainSteps {operators : List Operator} {operands : List Expression} {final : Folded}
    (single : ∀ operator, operator ∈ leading operators :: operators → operator.precedence = precedence)
    (regular : ∀ operand, operand ∈ operands → ∀ result, evaluate operand = .ok result → result.Regular)
    (all : (chainSteps operators operands).foldlM (foldStep evaluate) Folded.start = .ok final)
    {step : Operator × Expression} (member : step ∈ final.residual) :
    step.1.precedence = precedence ∧ step.2.Regular := by
  rcases mem_residual_of_foldlM all member with before | ⟨origin, inSteps, isOperator, evaluated, _⟩
  · exact (List.not_mem_nil before).elim
  · obtain ⟨inOperators, inOperands⟩ := List.of_mem_zip inSteps
    exact ⟨isOperator ▸ single origin.1 inOperators, regular origin.2 inOperands step.2 evaluated⟩

/-- A folded chain is a quantity or a chain of the same precedence, and has the known terms that the results of its
operands leave. -/
theorem foldChain_knownTerms {operators : List Operator} {operands : List Expression} {result : Expression}
    (noPower : precedence ≠ .power) (several : 2 ≤ operands.length)
    (count : operands.length = operators.length + 1)
    (single : ∀ operator, operator ∈ operators → operator.precedence = precedence)
    (regular : ∀ operand, operand ∈ operands → ∀ result, evaluate operand = .ok result → result.Regular)
    (folded : foldChain evaluate operators operands = .ok result) :
    (result.isQuantity = true ∨ result.isChainOf precedence = true) ∧
      ∃ results, List.Forall₂ (fun operand result => evaluate operand = .ok result) operands results ∧
        result.knownTerms precedence = foldedTerms precedence results := by
  have withLeading : ∀ operator, operator ∈ leading operators :: operators → operator.precedence = precedence := by
    cases operators with
    | nil =>
        rw [count] at several
        exact absurd several (by decide)
    | cons first others =>
        refine List.forall_mem_cons.mpr ⟨?_, single⟩
        exact (Operator.precedence_forward first).trans (single first List.mem_cons_self)
  obtain ⟨final, all, ended⟩ := foldChain_eq_ok folded
  obtain ⟨results, each, known, left⟩ := results_of_chainSteps count all
  have fromSteps : ∀ step, step ∈ final.residual → step.1.precedence = precedence ∧ step.2.Regular :=
    fun step member => regular_of_chainSteps withLeading regular all member
  have stepRegular := fun step member => (fromSteps step member).2
  have spliced : (final.residual.flatMap fun step => step.2.knownTerms precedence) =
      (results.filter fun result => !result.isQuantity).flatMap (knownTerms precedence) := by
    rw [← left, List.flatMap_map]
  rcases expression_joined noPower (fun step member => (fromSteps step member).1)
    (fun step member => (fromSteps step member).2.wellFormed) ended with
    ⟨value, isKnown, rfl⟩ | ⟨isUnknown, operator, second, rest, isResidual, rfl⟩
  · rw [isKnown] at known
    have someKnown : results.any isQuantity = true := known.symm
    refine ⟨?_, results, each, ?_⟩
    · cases isResidual : final.residual with
      | nil => exact Or.inl rfl
      | cons step rest =>
          rw [isResidual] at fromSteps
          exact Or.inr (Expression.isChainOf_joinSteps (List.cons_ne_nil _ _) fun step member =>
            (fromSteps step member).1)
    · rw [Expression.knownTerms_joinSteps noPower (fun step member => (fromSteps step member).1)
        (.quantity value trivial) stepRegular, foldedTerms, if_pos someKnown, spliced]
      rfl
  · rw [isUnknown] at known
    have noneKnown : results.any isQuantity = false := known.symm
    rw [isResidual] at fromSteps stepRegular spliced left
    refine ⟨Or.inr ?_, results, each, ?_⟩
    · -- nothing is known, so all operands are left over
      have whole : (results.filter fun result => !result.isQuantity) = results :=
        List.filter_eq_self.mpr fun result member => by
          rw [Bool.not_eq_true', Bool.eq_false_iff]
          exact List.any_eq_false.mp noneKnown result member
      have length := congrArg List.length left
      rw [whole, List.length_map, List.length_cons, ← each.length_eq] at length
      have more : rest ≠ [] := List.ne_nil_of_length_pos (by omega)
      exact Expression.isChainOf_joinSteps more fun step member => (fromSteps step (List.mem_cons_of_mem _ member)).1
    · rw [Expression.knownTerms_joinSteps noPower
        (fun step member => (fromSteps step (List.mem_cons_of_mem _ member)).1) (stepRegular _ List.mem_cons_self)
        fun step member => stepRegular step (List.mem_cons_of_mem _ member), foldedTerms, noneKnown, ← spliced]
      rfl

/-! ### References -/

/-- The evaluation of an expression is that of another one, up to a sign. -/
inductive Refers (workspace : Workspace) : List String × Expression → List String × Expression → Prop where
  | bound {active : List String} {name : String} {bound : Expression} (inactive : name ∉ active)
      (found : workspace.bindings.find? name = some bound) :
      Refers workspace (active, .var name) (name :: active, bound)
  | stored {active : List String} {index : Nat} {stored : Expression}
      (found : workspace.output? index = some stored) :
      Refers workspace (active, .output index) (active, stored)
  | negated {active : List String} {operand : Expression} :
      Refers workspace (active, .negation operand) (active, operand)

variable {workspace : Workspace}

/-- A chain that a chain is evaluated to is of the same precedence. -/
theorem results_of_chain (stores : workspace.Stores Regular) {depth : Nat} {active : List String} {inner : Precedence}
    {operands : List Expression} {operators : List Operator} {result : Expression}
    (regular : (Expression.chain inner operands operators).Regular)
    (evaluated : foldChain (within workspace depth active) operators operands = .ok result)
    (isChain : result.isChainOf precedence = true) :
    inner = precedence ∧ ∃ results,
      List.Forall₂ (fun operand result => within workspace depth active operand = .ok result) operands results ∧
        (∀ result, result ∈ results → result.Regular) ∧
        result.knownTerms precedence = foldedTerms precedence results := by
  cases regular with
  | chain noPower single count spliced parts =>
      have operandRegular : ∀ operand, operand ∈ operands → ∀ result,
          within workspace depth active operand = .ok result → result.Regular :=
        fun operand member result operandEvaluated => within_regular stores (parts operand member) operandEvaluated
      obtain ⟨shape, results, each, known⟩ :=
        foldChain_knownTerms noPower (spliced trivial).several count single operandRegular evaluated
      have same : inner = precedence := by
        cases result with
        | chain other _ _ =>
            rcases shape with isKnown | isInner
            · cases isKnown
            · exact (of_decide_eq_true isInner).symm.trans (of_decide_eq_true isChain)
        | _ => cases isChain
      subst same
      refine ⟨rfl, results, each, fun result member => ?_, known⟩
      obtain ⟨index, inside, rfl⟩ := List.getElem_of_mem member
      have inOperands : index < operands.length := each.length_eq ▸ inside
      exact operandRegular operands[index] (List.getElem_mem inOperands) _ (each.get inOperands inside)

/-- A result that is a chain goes back to a chain of the same precedence, and has the known terms that the results
of its operands leave. -/
theorem exists_chain_of_within (stores : workspace.Stores Regular) {depth : Nat} {active : List String}
    {expression result : Expression} (regular : expression.Regular)
    (evaluated : within workspace depth active expression = .ok result)
    (isChain : result.isChainOf precedence = true) :
    ∃ depth others operands operators results,
      Relation.ReflTransGen (Refers workspace) (active, expression) (others, .chain precedence operands operators) ∧
        List.Forall₂ (fun operand result => within workspace depth others operand = .ok result) operands results ∧
        (∀ result, result ∈ results → result.Regular) ∧
        result.knownTerms precedence = foldedTerms precedence results := by
  induction depth generalizing active expression result with
  | zero => cases evaluated
  | succ depth ih =>
      cases regular with
      | quantity value =>
          cases evaluated
          cases isChain
      | var name =>
          simp only [within] at evaluated
          split at evaluated
          · cases evaluated
            cases isChain
          · rename_i inactive
            split at evaluated
            · cases evaluated
              cases isChain
            · rename_i bound found
              obtain ⟨inner, others, operands, operators, results, refers, onward⟩ :=
                ih (stores.bound found) evaluated isChain
              have step : Refers workspace (active, .var name) (name :: active, bound) :=
                .bound (fun member => inactive (List.elem_iff.mpr member)) found
              exact ⟨inner, others, operands, operators, results, .head step refers, onward⟩
      | output index =>
          simp only [within] at evaluated
          split at evaluated
          · cases evaluated
            cases isChain
          · rename_i stored found
            obtain ⟨inner, others, operands, operators, results, refers, onward⟩ :=
              ih (stores.output found) evaluated isChain
            exact ⟨inner, others, operands, operators, results, .head (.stored found) refers, onward⟩
      | tower several parts =>
          rcases evaluateTower_eq_ok evaluated with ⟨quantity, rfl⟩ | rfl <;> cases isChain
      | chain noPower single count spliced parts =>
          obtain ⟨rfl, results, each, allRegular, known⟩ :=
            results_of_chain stores (.chain noPower single count spliced parts) evaluated isChain
          exact ⟨depth, active, _, _, results, .refl, each, allRegular, known⟩
      | @negation operand tidy part =>
          obtain ⟨unsigned, operandEvaluated, rfl⟩ := map_eq_ok_iff.mp evaluated
          have regular := within_regular stores part operandEvaluated
          rw [Expression.isChainOf_negate (regular.tidy trivial)] at isChain
          obtain ⟨inner, others, operands, operators, results, refers, each, allRegular, known⟩ :=
            ih part operandEvaluated isChain
          refine ⟨inner, others, operands, operators, results, .head .negated refers, each, allRegular, ?_⟩
          rw [Expression.knownTerms_negate regular, known]

end Evaluation

end QuantityCalculator
