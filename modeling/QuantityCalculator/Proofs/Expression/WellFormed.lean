import QuantityCalculator.Expression.Basic

/-!
Forms of expressions.

A chain is a sum or a product, its operators are all of that precedence, and there is one less of them than
operands.  Expressions of every form have such chains.  A form may ask more of them, of signs, and of variables,
results and towers.  Negating and joining expressions keeps every form.
-/

namespace QuantityCalculator.Expression

/-- A sign stands only in front of what cannot take it. -/
def Tidy : Expression → Prop
  | .negation (.var _) => True
  | .negation (.output _) => True
  | .negation (.tower _) => True
  | .negation _ => False
  | _ => True

def isChainOf (precedence : Precedence) : Expression → Bool
  | .chain inner _ _ => inner = precedence
  | _ => false

/-- Several operands, none of which is a chain of the precedence of their own chain. -/
structure Spliced (precedence : Precedence) (operands : List Expression) : Prop where
  several : 2 ≤ operands.length
  flat : ∀ operand, operand ∈ operands → operand.isChainOf precedence = false

/-- What is asked of an expression beside chains that fit together: of its quantities, and of its variables,
results and towers; whether chains are spliced and signs moved as far as they go; and whether all of this is asked
of what stands in towers, too. -/
structure Form where
  quantity : Quantity → Prop
  negates : ∀ value, quantity value → quantity (-value)
  atom : Expression → Prop
  spliced : Prop
  towers : Prop

inductive Formed (form : Form) : Expression → Prop where
  | quantity (value : Quantity) (holds : form.quantity value) : Formed form (.quantity value)
  | var (name : String) (isAtom : form.atom (.var name)) : Formed form (.var name)
  | output (index : Nat) (isAtom : form.atom (.output index)) : Formed form (.output index)
  | chain {precedence : Precedence} {operands : List Expression} {operators : List Operator}
      (noPower : precedence ≠ .power)
      (single : ∀ operator, operator ∈ operators → operator.precedence = precedence)
      (count : operands.length = operators.length + 1) (spliced : form.spliced → Spliced precedence operands)
      (parts : ∀ operand, operand ∈ operands → Formed form operand) :
      Formed form (.chain precedence operands operators)
  | tower {operands : List Expression} (isAtom : form.atom (.tower operands))
      (parts : form.towers → ∀ operand, operand ∈ operands → Formed form operand) : Formed form (.tower operands)
  | negation {operand : Expression} (tidy : form.spliced → (Expression.negation operand).Tidy)
      (part : Formed form operand) : Formed form (.negation operand)

/-- Operands and operators of a chain of a form, or a single operand that a chain starts with. -/
structure Links.Formed (form : Form) (precedence : Precedence) (links : Links) : Prop where
  single : ∀ operator, operator ∈ links.operators → operator.precedence = precedence
  count : links.operands.length = links.operators.length + 1
  flat : form.spliced → ∀ operand, operand ∈ links.operands → operand.isChainOf precedence = false
  parts : ∀ operand, operand ∈ links.operands → operand.Formed form

/-! ### Forms -/

/-- Expressions with chains that fit together, whose variables, results and towers satisfy a condition. -/
abbrev Form.built (atom : Expression → Prop) : Form where
  quantity _ := True
  negates _ _ := trivial
  atom := atom
  spliced := False
  towers := True

abbrev Built (atom : Expression → Prop) (expression : Expression) : Prop :=
  expression.Formed (.built atom)

abbrev WellFormed (expression : Expression) : Prop :=
  expression.Built fun _ => True

abbrev Links.WellFormed (precedence : Precedence) (links : Links) : Prop :=
  links.Formed (.built fun _ => True) precedence

/-- Spliced expressions.  What stands in a tower is left open: a tower is a whole for whatever it is joined to. -/
abbrev Form.flat (atom : Expression → Prop) : Form where
  quantity _ := True
  negates _ _ := trivial
  atom := atom
  spliced := True
  towers := False

abbrev Flat (atom : Expression → Prop) (expression : Expression) : Prop :=
  expression.Formed (.flat atom)

def Several : Expression → Prop
  | .tower operands => 2 ≤ operands.length
  | _ => True

abbrev Form.regular : Form where
  quantity _ := True
  negates _ _ := trivial
  atom := Several
  spliced := True
  towers := True

/-- Trees as they are built.  A chain is a sum or a product of at least two operands with one operator less, all
of its precedence, and none of the operands is a chain of that precedence.  A tower has at least two operands.
A sign stands in front of a reference or a tower. -/
abbrev Regular (expression : Expression) : Prop :=
  expression.Formed .regular

variable {form : Form} {atom : Expression → Prop}

/-- A form that asks nothing that another one does not ask. -/
structure Form.Asks (form other : Form) : Prop where
  quantity : ∀ value, form.quantity value → other.quantity value
  atom : ∀ expression, form.atom expression → other.atom expression
  spliced : other.spliced → form.spliced
  towers : other.towers → form.towers

theorem Formed.imp {other : Form} (asks : form.Asks other) {expression : Expression}
    (formed : expression.Formed form) : expression.Formed other := by
  induction formed with
  | quantity value holds => exact .quantity value (asks.quantity value holds)
  | var name isAtom => exact .var name (asks.atom _ isAtom)
  | output index isAtom => exact .output index (asks.atom _ isAtom)
  | chain noPower single count spliced _ ih =>
      exact .chain noPower single count (fun isSpliced => spliced (asks.spliced isSpliced)) ih
  | tower isAtom _ ih => exact .tower (asks.atom _ isAtom) fun inTowers => ih (asks.towers inTowers)
  | negation tidy _ ih => exact .negation (fun isSpliced => tidy (asks.spliced isSpliced)) ih

theorem Built.imp {other : Expression → Prop} (implies : ∀ expression, atom expression → other expression)
    {expression : Expression} (built : expression.Built atom) : expression.Built other :=
  have asks : (Form.built atom).Asks (.built other) := ⟨fun _ => id, implies, id, id⟩
  Formed.imp asks built

theorem Flat.imp {other : Expression → Prop} (implies : ∀ expression, atom expression → other expression)
    {expression : Expression} (flat : expression.Flat atom) : expression.Flat other :=
  have asks : (Form.flat atom).Asks (.flat other) := ⟨fun _ => id, implies, id, id⟩
  Formed.imp asks flat

theorem Regular.wellFormed {expression : Expression} (regular : expression.Regular) : expression.WellFormed :=
  regular.imp ⟨fun _ _ => trivial, fun _ _ => trivial, False.elim, fun _ => trivial⟩

theorem Regular.flat {expression : Expression} (regular : expression.Regular) : expression.Flat fun _ => True :=
  regular.imp ⟨fun _ _ => trivial, fun _ _ => trivial, fun _ => trivial, False.elim⟩

theorem Formed.tidy {expression : Expression} (formed : expression.Formed form) (isSpliced : form.spliced) :
    expression.Tidy := by
  cases formed with
  | negation tidy _ => exact tidy isSpliced
  | _ => trivial

def parts : Expression → List Expression
  | .chain _ operands _ => operands
  | .tower operands => operands
  | .negation operand => [operand]
  | _ => []

def IsReference : Expression → Prop
  | .var _ => True
  | .output _ => True
  | _ => False

theorem Formed.part {expression operand : Expression} (formed : expression.Formed form) (inTowers : form.towers)
    (member : operand ∈ expression.parts) : operand.Formed form := by
  cases formed with
  | chain noPower single count spliced parts => exact parts operand member
  | tower isAtom parts => exact parts inTowers operand member
  | negation tidy part => exact List.mem_singleton.mp member ▸ part
  | _ => cases member

/-! ### Negation -/

theorem isChainOf_of_tidy {operand : Expression} (tidy : (Expression.negation operand).Tidy)
    (precedence : Precedence) : operand.isChainOf precedence = false := by
  cases operand with
  | chain inner operands operators => exact tidy.elim
  | _ => rfl

theorem isNegation_of_tidy {operand : Expression} (tidy : (Expression.negation operand).Tidy) :
    operand.isNegation = false := by
  cases operand with
  | negation inner => exact tidy.elim
  | _ => rfl

theorem isChainOf_negate {expression : Expression} (tidy : expression.Tidy) (precedence : Precedence) :
    expression.negate.isChainOf precedence = expression.isChainOf precedence := by
  cases expression with
  | chain inner operands operators => cases operands <;> rfl
  | negation operand => exact isChainOf_of_tidy tidy precedence
  | _ => rfl

private theorem length_negateOperators (precedence : Precedence) (operators : List Operator) :
    (negateOperators precedence operators).length = operators.length := by
  unfold negateOperators
  split
  · rw [List.length_map]
  · rfl

theorem negateOperators_single {precedence : Precedence} {operators : List Operator}
    (single : ∀ operator, operator ∈ operators → operator.precedence = precedence) :
    ∀ operator, operator ∈ negateOperators precedence operators →
      operator.precedence = precedence := by
  intro operator member
  unfold negateOperators at member
  split at member
  · rename_i isSum
    obtain ⟨inner, _, rfl⟩ := List.mem_map.mp member
    rw [Operator.precedence_through, isSum]
    rfl
  · exact single operator member

/-- The first operand of a spliced chain can be negated. -/
theorem flat_negate {precedence : Precedence} {first : Expression} {rest : List Expression}
    (isSpliced : form.spliced) (formed : first.Formed form)
    (flat : ∀ operand, operand ∈ first :: rest → operand.isChainOf precedence = false) :
    ∀ operand, operand ∈ first.negate :: rest → operand.isChainOf precedence = false := by
  refine List.forall_mem_cons.mpr ⟨?_, fun operand later => flat operand (List.mem_cons_of_mem _ later)⟩
  rw [isChainOf_negate (formed.tidy isSpliced)]
  exact flat first List.mem_cons_self

theorem negate_formed {expression : Expression} (formed : expression.Formed form) :
    expression.negate.Formed form := by
  induction formed with
  | quantity value holds => exact .quantity _ (form.negates value holds)
  | var name isAtom => exact .negation (fun _ => trivial) (.var name isAtom)
  | output index isAtom => exact .negation (fun _ => trivial) (.output index isAtom)
  | @chain precedence operands operators noPower single count spliced parts ih =>
      cases operands with
      | nil => exact absurd count (by simp)
      | cons first rest =>
          refine .chain noPower (negateOperators_single single) ?_ (fun isSpliced => ?_) ?_
          · rw [length_negateOperators]
            exact count
          · exact ⟨(spliced isSpliced).several,
              flat_negate isSpliced (parts first List.mem_cons_self) (spliced isSpliced).flat⟩
          · exact List.forall_mem_cons.mpr ⟨ih first List.mem_cons_self,
              fun operand later => parts operand (List.mem_cons_of_mem _ later)⟩
  | tower isAtom parts _ => exact .negation (fun _ => trivial) (.tower isAtom parts)
  | negation _ part _ => exact part

theorem negate_tidy {expression : Expression} (tidy : expression.Tidy) : expression.negate.Tidy := by
  cases expression with
  | chain precedence operands operators => cases operands <;> trivial
  | negation operand =>
      cases operand with
      | var name => trivial
      | output index => trivial
      | tower operands => trivial
      | _ => exact tidy.elim
  | _ => trivial

/-- An expression of any form starts with an operand that a sign can move to. -/
theorem hasHead_of_formed {expression : Expression} (formed : expression.Formed form) :
    expression.hasHead = true := by
  induction formed with
  | @chain precedence operands operators noPower single count spliced parts ih =>
      cases operands with
      | nil => exact absurd count (by simp)
      | cons first rest => exact ih first List.mem_cons_self
  | _ => rfl

/-! ### Joining -/

namespace Links

variable {precedence : Precedence} {links left right : Links} {operator : Operator} {expression : Expression}

theorem start_of_flat (flat : expression.isChainOf precedence = false) :
    start precedence expression = { operands := [expression], operators := [] } := by
  cases expression with
  | chain inner operands operators =>
      have different : inner ≠ precedence := of_decide_eq_false flat
      rw [start, if_neg different]
  | _ => rfl

theorem alone_formed (flat : form.spliced → expression.isChainOf precedence = false)
    (formed : expression.Formed form) :
    Links.Formed form precedence { operands := [expression], operators := [] } :=
  ⟨fun _ member => (List.not_mem_nil member).elim, rfl,
    fun isSpliced => List.forall_mem_singleton.mpr (flat isSpliced), List.forall_mem_singleton.mpr formed⟩

theorem start_formed (precedence : Precedence) (formed : expression.Formed form) :
    (start precedence expression).Formed form precedence := by
  cases isChain : expression.isChainOf precedence with
  | false =>
      rw [start_of_flat isChain]
      exact alone_formed (fun _ => isChain) formed
  | true =>
      cases formed with
      | @chain inner operands operators noPower single count spliced parts =>
          have same : inner = precedence := of_decide_eq_true isChain
          subst same
          rw [start, if_pos rfl]
          exact ⟨single, count, fun isSpliced => (spliced isSpliced).flat, parts⟩
      | _ => cases isChain

theorem append_formed (isOf : operator.precedence = precedence) (leftFormed : left.Formed form precedence)
    (rightFormed : right.Formed form precedence) :
    Links.Formed form precedence
      { operands := left.operands ++ right.operands
        operators := left.operators ++ operator :: right.operators } := by
  refine ⟨?_, ?_, fun isSpliced => ?_, ?_⟩
  · exact List.forall_mem_append.mpr
      ⟨leftFormed.single, List.forall_mem_cons.mpr ⟨isOf, rightFormed.single⟩⟩
  · have leftCount := leftFormed.count
    have rightCount := rightFormed.count
    simp only [List.length_append, List.length_cons]
    omega
  · exact List.forall_mem_append.mpr ⟨leftFormed.flat isSpliced, rightFormed.flat isSpliced⟩
  · exact List.forall_mem_append.mpr ⟨leftFormed.parts, rightFormed.parts⟩

theorem negateFirst_formed (formed : links.Formed form precedence) :
    Links.Formed form precedence { operands := negateFirst links.operands, operators := links.operators } := by
  obtain ⟨operands, operators⟩ := links
  cases operands with
  | nil => exact formed
  | cons first rest =>
      have firstFormed := formed.parts first List.mem_cons_self
      exact ⟨formed.single, formed.count,
        fun isSpliced => flat_negate isSpliced firstFormed (formed.flat isSpliced),
        List.forall_mem_cons.mpr ⟨negate_formed firstFormed,
          fun operand later => formed.parts operand (List.mem_cons_of_mem _ later)⟩⟩

theorem extend_formed (isOf : operator.precedence = precedence) (linksFormed : links.Formed form precedence)
    (formed : expression.Formed form) : (links.extend precedence operator expression).Formed form precedence := by
  have alone : ∀ {operator : Operator} {other : Expression}, operator.precedence = precedence →
      other.isChainOf precedence = false → other.Formed form → Links.Formed form precedence
        { operands := links.operands ++ [other], operators := links.operators ++ [operator] } :=
    fun isOf flat otherFormed => append_formed isOf linksFormed (alone_formed (fun _ => flat) otherFormed)
  -- a sign in front of what is added to a sum turns the operator around, so the operator is left open
  induction formed generalizing operator with
  | @chain inner operands operators noPower single count spliced parts _ =>
      by_cases same : inner = precedence
      · subst same
        have turned : Links.Formed form inner { operands, operators := operators.map (operator.through ·) } := by
          refine ⟨?_, by rw [List.length_map]; exact count, fun isSpliced => (spliced isSpliced).flat, parts⟩
          intro other member
          obtain ⟨before, _, rfl⟩ := List.mem_map.mp member
          rw [Operator.precedence_through, isOf]
        simp only [extend, if_pos]
        exact append_formed isOf linksFormed turned
      · simp only [extend, if_neg same]
        exact alone isOf (decide_eq_false same) (.chain noPower single count spliced parts)
  | @negation operand tidy part ih =>
      by_cases isSum : precedence = .sum
      · simp only [extend, if_pos isSum]
        exact ih ((Operator.precedence_opposite operator).trans isOf)
      · simp only [extend, if_neg isSum]
        exact append_formed isOf (negateFirst_formed linksFormed)
          (alone_formed (fun isSpliced => isChainOf_of_tidy (tidy isSpliced) precedence) part)
  | quantity value holds => exact alone isOf rfl (.quantity value holds)
  | var name isAtom => exact alone isOf rfl (.var name isAtom)
  | output index isAtom => exact alone isOf rfl (.output index isAtom)
  | tower isAtom parts _ => exact alone isOf rfl (.tower isAtom parts)

theorem extend_operators_ne_nil (links : Links) (precedence : Precedence) (operator : Operator)
    (expression : Expression) : (links.extend precedence operator expression).operators ≠ [] := by
  fun_induction extend precedence links operator expression with
  | case3 operator operand isSum ih => exact ih
  | _ => simp

end Links

theorem join_formed {left right : Expression} {operator : Operator} (noPower : operator.precedence ≠ .power)
    (leftFormed : left.Formed form) (rightFormed : right.Formed form) :
    (left.join operator right).Formed form := by
  have links := Links.extend_formed rfl (Links.start_formed operator.precedence leftFormed) rightFormed
  refine .chain noPower links.single links.count (fun isSpliced => ⟨?_, links.flat isSpliced⟩) links.parts
  rw [links.count]
  exact Nat.succ_le_succ (List.length_pos_iff.mpr (Links.extend_operators_ne_nil _ _ _ _))

/-- A first operand of any form leaves no sign without a place to go. -/
theorem join?_eq_some {left : Expression} (leftFormed : left.Formed form) (operator : Operator)
    (right : Expression) : left.join? operator right = some (left.join operator right) := by
  unfold join?
  rw [hasHead_of_formed leftFormed, Bool.not_true, Bool.and_false, if_neg Bool.false_ne_true]

theorem joinSteps_formed {first : Expression} {steps : List (Operator × Expression)}
    (noPower : ∀ step, step ∈ steps → step.1.precedence ≠ .power) (firstFormed : first.Formed form)
    (parts : ∀ step, step ∈ steps → step.2.Formed form) : (joinSteps first steps).Formed form := by
  induction steps generalizing first with
  | nil => exact firstFormed
  | cons step rest ih =>
      exact ih (fun later member => noPower later (List.mem_cons_of_mem _ member))
        (join_formed (noPower step List.mem_cons_self) firstFormed
          (parts step List.mem_cons_self))
        fun later member => parts later (List.mem_cons_of_mem _ member)

theorem joinSteps_tidy {first : Expression} (steps : List (Operator × Expression)) (tidy : first.Tidy) :
    (joinSteps first steps).Tidy := by
  induction steps generalizing first with
  | nil => exact tidy
  | cons step rest ih => exact ih trivial

theorem foldlM_join? {first : Expression} {steps : List (Operator × Expression)}
    (noPower : ∀ step, step ∈ steps → step.1.precedence ≠ .power) (firstFormed : first.Formed form)
    (parts : ∀ step, step ∈ steps → step.2.Formed form) :
    steps.foldlM (fun left step => left.join? step.1 step.2) first = some (joinSteps first steps) := by
  induction steps generalizing first with
  | nil => rfl
  | cons step rest ih =>
      rw [List.foldlM_cons, join?_eq_some firstFormed]
      exact ih (fun later member => noPower later (List.mem_cons_of_mem _ member))
        (join_formed (noPower step List.mem_cons_self) firstFormed
          (parts step List.mem_cons_self))
        fun later member => parts later (List.mem_cons_of_mem _ member)

/-- Operands of a form can always be joined by operators of one precedence. -/
theorem joinAll?_eq_some {precedence : Precedence} {first : Expression} {rest : List Expression}
    {operators : List Operator} (noPower : precedence ≠ .power)
    (single : ∀ operator, operator ∈ operators → operator.precedence = precedence)
    (count : rest.length = operators.length) (firstFormed : first.Formed form)
    (parts : ∀ operand, operand ∈ rest → operand.Formed form) :
    joinAll? (first :: rest) operators = some (joinSteps first (operators.zip rest)) := by
  cases operators with
  | nil =>
      rw [List.length_eq_zero_iff.mp count]
      rfl
  | cons operator others =>
      cases rest with
      | nil => cases count
      | cons second later =>
          have fits : ((second :: later).length = others.length + 1 &&
              others.all (·.precedence = operator.precedence)) = true := by
            rw [Bool.and_eq_true, decide_eq_true_iff, List.all_eq_true]
            refine ⟨count, fun other member => decide_eq_true ?_⟩
            rw [single other (List.mem_cons_of_mem _ member), single operator List.mem_cons_self]
          change (if _ then _ else _) = _
          rw [if_pos fits]
          apply foldlM_join?
          · intro step member
            rw [single step.1 (List.of_mem_zip member).1]
            exact noPower
          · exact firstFormed
          · exact fun step member => parts step.2 (List.of_mem_zip member).2

end QuantityCalculator.Expression
