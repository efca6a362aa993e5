import QuantityCalculator.Proofs.Expression.Signs
import Mathlib.Algebra.Order.Ring.Unbundled.Rat
import Mathlib.Tactic.Ring

/-!
Fractions in expressions.

Two expressions are alike if they differ only in that the first has a fraction where the second multiplies by a
numerator and divides by a denominator.  Negating and joining keep expressions alike, since what is spliced and what
changes its sign is the same in both.
-/

namespace QuantityCalculator.Expression

def literal (value : Rat) : Expression :=
  .quantity (.ofNumber (.exact value))

/-- An expression of exact quantities, and of powers that satisfy a condition. -/
inductive Exact (powers : List Expression → Prop) : Expression → Prop where
  | quantity {value : Quantity} (isExact : value.magnitude.isExact = true) : Exact powers (.quantity value)
  | chain {precedence : Precedence} {operands : List Expression} {operators : List Operator}
      (noRaise : ∀ operator, operator ∈ operators → operator ≠ .raise)
      (parts : ∀ operand, operand ∈ operands → Exact powers operand) :
      Exact powers (.chain precedence operands operators)
  | tower {operands : List Expression} (isExact : powers operands) : Exact powers (.tower operands)
  | negation {operand : Expression} (part : Exact powers operand) : Exact powers (.negation operand)

abbrev Steps := List (Operator × Expression)

/-- The links of a chain, whose first operator is left out. -/
def linksOf (steps : Steps) : Links :=
  { operands := steps.map Prod.snd, operators := (steps.map Prod.fst).tail }

def chainOf (precedence : Precedence) (steps : Steps) : Expression :=
  .chain precedence (linksOf steps).operands (linksOf steps).operators

/-- A part of two chains: an operand of each, or a fraction in the first one where the second one multiplies and
divides. -/
inductive Factor where
  | whole (operator : Operator) (fused own : Expression)
  | fraction (operator : Operator) (numerator denominator : Rat)

namespace Factor

def operator : Factor → Operator
  | .whole operator _ _ => operator
  | .fraction operator _ _ => operator

def isFraction : Factor → Bool
  | .whole _ _ _ => false
  | .fraction _ _ _ => true

def fusedSteps : Factor → Steps
  | .whole operator fused _ => [(operator, fused)]
  | .fraction operator n d => [(operator, literal (n / d))]

def ownSteps : Factor → Steps
  | .whole operator _ own => [(operator, own)]
  | .fraction operator n d => [(operator, literal n), (operator.through .divide, literal d)]

def through (outer : Operator) : Factor → Factor
  | .whole operator fused own => .whole (outer.through operator) fused own
  | .fraction operator n d => .fraction (outer.through operator) n d

def negate : Factor → Factor
  | .whole operator fused own => .whole operator fused.negate own.negate
  | .fraction operator n d => .fraction operator (-n) d

end Factor

def fusedSteps (factors : List Factor) : Steps :=
  factors.flatMap Factor.fusedSteps

def ownSteps (factors : List Factor) : Steps :=
  factors.flatMap Factor.ownSteps

def negateFactors (precedence : Precedence) : List Factor → List Factor
  | [] => []
  | first :: rest =>
    first.negate :: if precedence = .sum then rest.map (Factor.through .subtract) else rest

variable (powers : List Expression → Prop)

def Factor.IsExact : Factor → Prop
  | .whole _ _ own => own.Exact powers
  | .fraction _ _ _ => True

/-- In front of a fraction everything is exact. -/
def Guarded : List Factor → Prop
  | [] => True
  | factor :: rest => (rest.any Factor.isFraction = true → factor.IsExact powers) ∧ Guarded rest

structure Fits (precedence : Precedence) (factors : List Factor) : Prop where
  nonempty : factors ≠ []
  leads : ∀ first, factors.head? = some first → first.operator.forward = first.operator
  single : ∀ factor, factor ∈ factors → factor.operator.precedence = precedence
  fractions : ∀ operator n d, Factor.fraction operator n d ∈ factors → operator.precedence = .product ∧ d ≠ 0
  guarded : Guarded powers factors

/-- Expressions that differ in fractions only, in front of which everything is exact. -/
inductive Alike : Expression → Expression → Prop where
  | quantity (value : Quantity) : Alike (.quantity value) (.quantity value)
  | fraction {n d : Rat} (nonzero : d ≠ 0) :
      Alike (literal (n / d)) (chainOf .product [(.multiply, literal n), (.divide, literal d)])
  | chain {precedence : Precedence} (noPower : precedence ≠ .power) {factors : List Factor}
      (several : 2 ≤ factors.length) (fits : Fits powers precedence factors)
      (each : ∀ operator fused own, Factor.whole operator fused own ∈ factors → Alike fused own) :
      Alike (chainOf precedence (fusedSteps factors)) (chainOf precedence (ownSteps factors))
  | tower {pairs : List (Expression × Expression)} (nonempty : pairs ≠ [])
      (each : ∀ pair, pair ∈ pairs → Alike pair.1 pair.2) :
      Alike (.tower (pairs.map Prod.fst)) (.tower (pairs.map Prod.snd))
  | negation {fused own : Expression} (part : Alike fused own) : Alike (.negation fused) (.negation own)

/-- Two expressions as chains of a precedence with the same factors. -/
structure Splits (precedence : Precedence) (factors : List Factor) (fused own : Expression) : Prop where
  fusedLinks : Links.start precedence fused = linksOf (fusedSteps factors)
  ownLinks : Links.start precedence own = linksOf (ownSteps factors)
  fits : Fits powers precedence factors
  each : ∀ operator fused own, Factor.whole operator fused own ∈ factors → Alike powers fused own

variable {powers} {precedence : Precedence} {factors : List Factor} {fused own : Expression}

/-! ### Exact expressions -/

theorem isExact_neg (value : Quantity) : (-value).magnitude.isExact = value.magnitude.isExact := by
  obtain ⟨magnitude, dimension⟩ := value
  cases magnitude <;> rfl

private theorem negateOperators_ne_raise (precedence : Precedence) {operators : List Operator}
    (noRaise : ∀ operator, operator ∈ operators → operator ≠ .raise) :
    ∀ operator, operator ∈ negateOperators precedence operators → operator ≠ .raise := by
  intro operator member
  rw [negateOperators] at member
  split at member
  · obtain ⟨inner, _, rfl⟩ := List.mem_map.mp member
    cases inner <;> decide
  · exact noRaise operator member

theorem Exact.negate {expression : Expression} (exact : expression.Exact powers) :
    expression.negate.Exact powers := by
  induction exact with
  | quantity isExact => exact .quantity ((isExact_neg _).trans isExact)
  | @chain precedence operands operators noRaise parts ih =>
      have noRaiseToo := negateOperators_ne_raise precedence noRaise
      cases operands with
      | nil => exact .chain noRaiseToo parts
      | cons first rest =>
          obtain ⟨_, others⟩ := List.forall_mem_cons.mp parts
          exact .chain noRaiseToo (List.forall_mem_cons.mpr ⟨ih first List.mem_cons_self, others⟩)
  | tower isExact => exact .negation (.tower isExact)
  | negation part _ => exact part

theorem Exact.start {expression : Expression} (exact : expression.Exact powers) (precedence : Precedence) :
    ∀ operand, operand ∈ (Links.start precedence expression).operands → operand.Exact powers := by
  cases isChain : expression.isChainOf precedence with
  | false =>
      rw [Links.start_of_flat isChain]
      exact List.forall_mem_singleton.mpr exact
  | true =>
      cases exact with
      | @chain inner operands operators _ parts =>
          rw [Links.start, if_pos (of_decide_eq_true isChain)]
          exact parts
      | _ => cases isChain

/-! ### Steps -/

theorem fusedSteps_append (first second : List Factor) :
    fusedSteps (first ++ second) = fusedSteps first ++ fusedSteps second :=
  List.flatMap_append

theorem ownSteps_append (first second : List Factor) :
    ownSteps (first ++ second) = ownSteps first ++ ownSteps second :=
  List.flatMap_append

def throughSteps (outer : Operator) (steps : Steps) : Steps :=
  steps.map fun step => (outer.through step.1, step.2)

private theorem fusedSteps_through (outer : Operator) (factors : List Factor) :
    fusedSteps (factors.map (Factor.through outer)) = throughSteps outer (fusedSteps factors) := by
  induction factors with
  | nil => rfl
  | cons first rest ih =>
      rw [List.map_cons, fusedSteps, List.flatMap_cons, ← fusedSteps, ih]
      cases first <;> rfl

private theorem ownSteps_through {outer : Operator}
    (products : ∀ operator n d, Factor.fraction operator n d ∈ factors →
      outer.precedence = .product ∧ operator.precedence = .product) :
    ownSteps (factors.map (Factor.through outer)) = throughSteps outer (ownSteps factors) := by
  induction factors with
  | nil => rfl
  | cons first rest ih =>
      rw [List.map_cons, ownSteps, List.flatMap_cons, ← ownSteps,
        ih fun operator n d member => products operator n d (List.mem_cons_of_mem _ member)]
      cases first with
      | whole operator fused own => rfl
      | fraction operator n d =>
          obtain ⟨outerProduct, isProduct⟩ := products operator n d List.mem_cons_self
          have denominator : (outer.through operator).through .divide =
              outer.through (operator.through .divide) := by
            cases outer <;> cases operator <;>
              first | rfl | exact absurd outerProduct (by decide) | exact absurd isProduct (by decide)
          simp only [Factor.through, Factor.ownSteps, denominator]
          rfl

/-! ### Joining -/

private theorem Links.extend_of_unsigned {operator : Operator} {right : Expression} (noSign : right.isNegation = false)
    (links : Links) :
    links.extend precedence operator right =
      { operands := links.operands ++ (Links.start precedence right).operands
        operators := links.operators ++
          operator :: (Links.start precedence right).operators.map (operator.through ·) } := by
  cases right with
  | chain inner operands operators =>
      by_cases same : inner = precedence
      · rw [Links.extend, if_pos same, Links.start, if_pos same]
      · rw [Links.extend, if_neg same, Links.start, if_neg same]
        rfl
  | negation operand => cases noSign
  | _ => rfl

/-- An operator in front of a group joins the first operand of the group. -/
theorem through_leading {outer leading : Operator} (leads : leading.forward = leading)
    (same : leading.precedence = outer.precedence) : outer.through leading = outer := by
  cases outer <;> cases leading <;>
    first | rfl | exact absurd same (by decide) | exact absurd leads (by decide)

/-- The steps of a chain with the steps of another one spliced in. -/
theorem join_eq_chainOf {operator : Operator} {left right : Expression} (noSign : right.isNegation = false)
    {first second : Steps} (nonempty : first ≠ []) (leftLinks : Links.start operator.precedence left = linksOf first)
    (rightLinks : Links.start operator.precedence right = linksOf second)
    (leads : ∃ lead rest, second = lead :: rest ∧ lead.1.forward = lead.1 ∧
      lead.1.precedence = operator.precedence) :
    left.join operator right = chainOf operator.precedence (first ++ throughSteps operator second) := by
  obtain ⟨lead, rest, rfl, isForward, same⟩ := leads
  have isOperator := through_leading isForward same
  obtain ⟨head, others, rfl⟩ := List.exists_cons_of_ne_nil nonempty
  rw [join, Links.extend_of_unsigned noSign, leftLinks, rightLinks]
  simp only [chainOf, linksOf, throughSteps, List.map_append, List.map_cons, List.map_map, List.cons_append,
    List.tail_cons, isOperator]
  rfl

/-! ### Factors of chains -/

theorem Fits.exists_lead (fits : Fits powers precedence factors) :
    (∃ lead rest, fusedSteps factors = lead :: rest ∧ lead.1.forward = lead.1 ∧ lead.1.precedence = precedence) ∧
      ∃ lead rest, ownSteps factors = lead :: rest ∧ lead.1.forward = lead.1 ∧ lead.1.precedence = precedence := by
  obtain ⟨first, rest, rfl⟩ := List.exists_cons_of_ne_nil fits.nonempty
  have leads := fits.leads first rfl
  have single := fits.single first List.mem_cons_self
  cases first with
  | whole operator fused own => exact ⟨⟨_, _, rfl, leads, single⟩, _, _, rfl, leads, single⟩
  | fraction operator n d => exact ⟨⟨_, _, rfl, leads, single⟩, _, _, rfl, leads, single⟩

theorem guarded_append {first second : List Factor} (firstGuarded : Guarded powers first)
    (secondGuarded : Guarded powers second)
    (exact : second.any Factor.isFraction = true → ∀ factor, factor ∈ first → factor.IsExact powers) :
    Guarded powers (first ++ second) := by
  induction first with
  | nil => exact secondGuarded
  | cons factor rest ih =>
      obtain ⟨factorExact, restGuarded⟩ := firstGuarded
      refine ⟨fun hasFraction => ?_, ih restGuarded fun inSecond later member =>
        exact inSecond later (List.mem_cons_of_mem _ member)⟩
      change (rest ++ second).any Factor.isFraction = true at hasFraction
      rw [List.any_append, Bool.or_eq_true] at hasFraction
      exact hasFraction.elim factorExact fun inSecond => exact inSecond factor List.mem_cons_self

private theorem any_isFraction_through (outer : Operator) (factors : List Factor) :
    (factors.map (Factor.through outer)).any Factor.isFraction = factors.any Factor.isFraction := by
  rw [List.any_map]
  congr 1
  funext factor
  cases factor <;> rfl

private theorem guarded_through (outer : Operator) (guarded : Guarded powers factors) :
    Guarded powers (factors.map (Factor.through outer)) := by
  induction factors with
  | nil => trivial
  | cons factor rest ih =>
      refine ⟨fun hasFraction => ?_, ih guarded.2⟩
      rw [any_isFraction_through] at hasFraction
      have exact := guarded.1 hasFraction
      cases factor <;> exact exact

theorem Splits.exact (splits : Splits powers precedence factors fused own) (exact : own.Exact powers) :
    ∀ factor, factor ∈ factors → factor.IsExact powers := by
  intro factor member
  cases factor with
  | fraction _ _ _ => trivial
  | whole operator inner operand =>
      have operands := exact.start precedence
      rw [splits.ownLinks] at operands
      refine operands operand (List.mem_map.mpr ⟨(operator, operand), ?_, rfl⟩)
      exact List.mem_flatMap.mpr ⟨_, member, List.mem_singleton.mpr rfl⟩

theorem Fits.append {operator : Operator} {first second : List Factor}
    (firstFits : Fits powers operator.precedence first) (secondFits : Fits powers operator.precedence second)
    (exact : second.any Factor.isFraction = true → ∀ factor, factor ∈ first → factor.IsExact powers) :
    Fits powers operator.precedence (first ++ second.map (Factor.through operator)) where
  nonempty := fun empty => firstFits.nonempty (List.append_eq_nil_iff.mp empty).1
  leads := by
    intro lead isHead
    obtain ⟨head, rest, rfl⟩ := List.exists_cons_of_ne_nil firstFits.nonempty
    exact firstFits.leads lead isHead
  single := by
    intro factor member
    rcases List.mem_append.mp member with inFirst | inSecond
    · exact firstFits.single factor inFirst
    · obtain ⟨inner, _, rfl⟩ := List.mem_map.mp inSecond
      cases inner <;> exact Operator.precedence_through operator _
  fractions := by
    intro other n d member
    rcases List.mem_append.mp member with inFirst | inSecond
    · exact firstFits.fractions other n d inFirst
    · obtain ⟨inner, innerMember, same⟩ := List.mem_map.mp inSecond
      cases inner with
      | whole _ _ _ => cases same
      | fraction innerOperator innerN innerD =>
          cases same
          obtain ⟨isProduct, nonzero⟩ := secondFits.fractions _ _ _ innerMember
          have isOperator : innerOperator.precedence = operator.precedence := secondFits.single _ innerMember
          rw [Operator.precedence_through, ← isOperator]
          exact ⟨isProduct, nonzero⟩
  guarded := by
    refine guarded_append firstFits.guarded (guarded_through operator secondFits.guarded) fun hasFraction => ?_
    rw [any_isFraction_through] at hasFraction
    exact exact hasFraction

private theorem start_chainOf (precedence : Precedence) (steps : Steps) :
    Links.start precedence (chainOf precedence steps) = linksOf steps := by
  rw [chainOf, Links.start, if_pos rfl]

/-- Joining splices the same factors on both sides. -/
theorem Splits.join {operator : Operator} (isOf : operator.precedence = precedence) (noPower : precedence ≠ .power)
    {first second : List Factor} {fusedRight right : Expression} (left : Splits powers precedence first fused own)
    (splitsRight : Splits powers precedence second fusedRight right)
    (fusedUnsigned : fusedRight.isNegation = false) (unsigned : right.isNegation = false)
    (exact : second.any Factor.isFraction = true → own.Exact powers) :
    Alike powers (fused.join operator fusedRight) (own.join operator right) ∧
      Splits powers precedence (first ++ second.map (Factor.through operator))
        (fused.join operator fusedRight) (own.join operator right) := by
  subst isOf
  have fits := left.fits.append splitsRight.fits fun hasFraction => left.exact (exact hasFraction)
  obtain ⟨fusedLead, ownLead⟩ := splitsRight.fits.exists_lead
  obtain ⟨⟨_, _, isFused, _⟩, ⟨_, _, isOwn, _⟩⟩ := left.fits.exists_lead
  -- Only in front of a group of a product does an operator go through to the numerator and the denominator alike.
  have products : ∀ inner n d, Factor.fraction inner n d ∈ second →
      operator.precedence = .product ∧ inner.precedence = .product := by
    intro inner n d member
    obtain ⟨isProduct, _⟩ := splitsRight.fits.fractions inner n d member
    have same : inner.precedence = operator.precedence := splitsRight.fits.single _ member
    exact ⟨same ▸ isProduct, isProduct⟩
  have fusedJoin : fused.join operator fusedRight = chainOf operator.precedence
      (fusedSteps (first ++ second.map (Factor.through operator))) := by
    rw [fusedSteps_append, fusedSteps_through]
    exact join_eq_chainOf fusedUnsigned (isFused ▸ List.cons_ne_nil _ _) left.fusedLinks splitsRight.fusedLinks
      fusedLead
  have ownJoin : own.join operator right = chainOf operator.precedence
      (ownSteps (first ++ second.map (Factor.through operator))) := by
    rw [ownSteps_append, ownSteps_through products]
    exact join_eq_chainOf unsigned (isOwn ▸ List.cons_ne_nil _ _) left.ownLinks splitsRight.ownLinks ownLead
  have each : ∀ other inner operand, Factor.whole other inner operand ∈
      first ++ second.map (Factor.through operator) → Alike powers inner operand := by
    intro other inner operand member
    rcases List.mem_append.mp member with inFirst | inSecond
    · exact left.each other inner operand inFirst
    · obtain ⟨factor, factorMember, same⟩ := List.mem_map.mp inSecond
      cases factor with
      | whole _ _ _ =>
          cases same
          exact splitsRight.each _ _ _ factorMember
      | fraction _ _ _ => cases same
  have several : 2 ≤ (first ++ second.map (Factor.through operator)).length := by
    have firstSome := List.length_pos_iff.mpr left.fits.nonempty
    have secondSome := List.length_pos_iff.mpr splitsRight.fits.nonempty
    rw [List.length_append, List.length_map]
    omega
  rw [fusedJoin, ownJoin]
  exact ⟨.chain noPower several fits each, start_chainOf _ _, start_chainOf _ _, fits, each⟩

/-! ### Negation -/

def negateSteps (precedence : Precedence) : Steps → Steps
  | [] => []
  | (operator, first) :: rest =>
    (operator, first.negate) :: if precedence = .sum then throughSteps .subtract rest else rest

private theorem negate_chainOf (precedence : Precedence) (steps : Steps) :
    (chainOf precedence steps).negate = chainOf precedence (negateSteps precedence steps) := by
  cases steps with
  | nil =>
      change Expression.chain precedence [] (negateOperators precedence []) = .chain precedence [] []
      rw [negateOperators]
      split <;> rfl
  | cons step rest =>
      by_cases isSum : precedence = .sum
      · simp only [chainOf, linksOf, negateSteps, throughSteps, List.map_cons, List.tail_cons, negate, negateOperators,
          if_pos isSum, List.map_map]
        rfl
      · simp only [chainOf, linksOf, negateSteps, List.map_cons, List.tail_cons, negate, negateOperators,
          if_neg isSum]

private theorem steps_of_links_single {steps : Steps} {expression : Expression}
    (links : linksOf steps = { operands := [expression], operators := [] }) :
    ∃ operator, steps = [(operator, expression)] := by
  have operands := congrArg Links.operands links
  obtain ⟨⟨operator, operand⟩, rfl, rfl⟩ := List.map_eq_singleton_iff.mp operands
  exact ⟨operator, rfl⟩

private theorem start_negate_of_links {expression : Expression} (tidy : expression.Tidy) {steps : Steps}
    (links : Links.start precedence expression = linksOf steps) :
    Links.start precedence expression.negate = linksOf (negateSteps precedence steps) := by
  cases isChain : expression.isChainOf precedence with
  | false =>
      rw [Links.start_of_flat isChain] at links
      obtain ⟨operator, rfl⟩ := steps_of_links_single links.symm
      rw [Links.start_of_flat ((isChainOf_negate tidy precedence).trans isChain), negateSteps]
      split <;> rfl
  | true =>
      cases expression with
      | chain inner operands operators =>
          obtain rfl : inner = precedence := of_decide_eq_true isChain
          rw [Links.start, if_pos rfl] at links
          have isChainOf : Expression.chain inner operands operators = chainOf inner steps := by
            rw [chainOf, ← links]
          rw [isChainOf, negate_chainOf, start_chainOf]
      | _ => cases isChain

theorem neg_literal (value : Rat) : (literal value).negate = literal (-value) :=
  rfl

/-- In a sum there are no fractions, since they belong to products. -/
theorem Fits.noFraction (fits : Fits powers .sum factors) {operator : Operator} {n d : Rat} :
    Factor.fraction operator n d ∉ factors := by
  intro member
  have isProduct := (fits.fractions operator n d member).1
  have isSum : operator.precedence = .sum := fits.single _ member
  rw [isSum] at isProduct
  cases isProduct

private theorem fusedSteps_negate (precedence : Precedence) (factors : List Factor) :
    fusedSteps (negateFactors precedence factors) = negateSteps precedence (fusedSteps factors) := by
  cases factors with
  | nil => rfl
  | cons first rest =>
      have others : fusedSteps (if precedence = .sum then rest.map (Factor.through .subtract) else rest) =
          if precedence = .sum then throughSteps .subtract (fusedSteps rest) else fusedSteps rest := by
        split
        · exact fusedSteps_through .subtract rest
        · rfl
      rw [negateFactors, fusedSteps, List.flatMap_cons, ← fusedSteps, others]
      cases first with
      | whole operator fused own => rfl
      | fraction operator n d =>
          rw [Factor.negate, Factor.fusedSteps, neg_div, ← neg_literal]
          rfl

private theorem ownSteps_negate (fits : Fits powers precedence factors) :
    ownSteps (negateFactors precedence factors) = negateSteps precedence (ownSteps factors) := by
  cases factors with
  | nil => rfl
  | cons first rest =>
      rw [negateFactors, ownSteps, List.flatMap_cons, ← ownSteps]
      by_cases isSum : precedence = .sum
      · subst isSum
        rw [if_pos rfl, ownSteps_through fun _ _ _ member =>
          (fits.noFraction (List.mem_cons_of_mem _ member)).elim]
        cases first with
        | whole operator fused own => rfl
        | fraction operator n d => exact (fits.noFraction List.mem_cons_self).elim
      · rw [if_neg isSum]
        cases first with
        | whole operator fused own =>
            simp only [ownSteps, Factor.negate, Factor.ownSteps, List.flatMap_cons, List.cons_append, List.nil_append,
              negateSteps, if_neg isSum]
        | fraction operator n d =>
            simp only [ownSteps, Factor.negate, Factor.ownSteps, List.flatMap_cons, List.cons_append, List.nil_append,
              negateSteps, if_neg isSum, neg_literal]

theorem any_isFraction_negate (precedence : Precedence) (factors : List Factor) :
    (negateFactors precedence factors).any Factor.isFraction = factors.any Factor.isFraction := by
  cases factors with
  | nil => rfl
  | cons first rest =>
      have others : (if precedence = .sum then rest.map (Factor.through .subtract) else rest).any Factor.isFraction =
          rest.any Factor.isFraction := by
        split
        · exact any_isFraction_through .subtract rest
        · rfl
      rw [negateFactors, List.any_cons, List.any_cons, others]
      cases first <;> rfl

private theorem length_negateFactors (precedence : Precedence) (factors : List Factor) :
    (negateFactors precedence factors).length = factors.length := by
  cases factors with
  | nil => rfl
  | cons first rest =>
      rw [negateFactors, List.length_cons, List.length_cons]
      split
      · rw [List.length_map]
      · rfl

private theorem mem_negateFactors {factor : Factor} (member : factor ∈ negateFactors precedence factors) :
    (∃ first, first ∈ factors ∧ factor = first.negate) ∨ factor ∈ factors ∨
      precedence = .sum ∧ ∃ later, later ∈ factors ∧ factor = later.through .subtract := by
  cases factors with
  | nil => cases member
  | cons first rest =>
      rw [negateFactors] at member
      rcases List.mem_cons.mp member with rfl | later
      · exact Or.inl ⟨first, List.mem_cons_self, rfl⟩
      · right
        split at later
        · rename_i isSum
          obtain ⟨inner, inRest, rfl⟩ := List.mem_map.mp later
          exact Or.inr ⟨isSum, inner, List.mem_cons_of_mem _ inRest, rfl⟩
        · exact Or.inl (List.mem_cons_of_mem _ later)

private theorem guarded_negate (precedence : Precedence) (guarded : Guarded powers factors) :
    Guarded powers (negateFactors precedence factors) := by
  cases factors with
  | nil => trivial
  | cons first rest =>
      obtain ⟨firstExact, restGuarded⟩ := guarded
      constructor
      · intro hasFraction
        have inRest : rest.any Factor.isFraction = true := by
          split at hasFraction
          · rwa [any_isFraction_through] at hasFraction
          · exact hasFraction
        have exact := firstExact inRest
        cases first with
        | whole _ _ _ => exact Exact.negate exact
        | fraction _ _ _ => trivial
      · split
        · exact guarded_through .subtract restGuarded
        · exact restGuarded

theorem Fits.negate (fits : Fits powers precedence factors) :
    Fits powers precedence (negateFactors precedence factors) where
  nonempty := by
    rw [← List.length_pos_iff, length_negateFactors, List.length_pos_iff]
    exact fits.nonempty
  leads := by
    obtain ⟨first, rest, rfl⟩ := List.exists_cons_of_ne_nil fits.nonempty
    intro lead isHead
    obtain rfl : first.negate = lead := Option.some.inj isHead
    have leads := fits.leads first rfl
    cases first <;> exact leads
  single := by
    intro factor member
    rcases mem_negateFactors member with ⟨first, inside, rfl⟩ | inside | ⟨isSum, later, inside, rfl⟩
    · have single := fits.single first inside
      cases first <;> exact single
    · exact fits.single factor inside
    · cases later <;> exact (Operator.precedence_through .subtract _).trans isSum.symm
  fractions := by
    intro operator n d member
    rcases mem_negateFactors member with ⟨first, inside, same⟩ | inside | ⟨isSum, later, inside, same⟩
    · cases first with
      | whole _ _ _ => cases same
      | fraction _ _ _ =>
          cases same
          exact fits.fractions _ _ _ inside
    · exact fits.fractions operator n d inside
    · subst isSum
      cases later with
      | whole _ _ _ => cases same
      | fraction _ _ _ => exact (fits.noFraction inside).elim
  guarded := guarded_negate precedence fits.guarded

/-- What holds of the operands of two chains, and of their negations, holds after a negation. -/
theorem each_negate {alike : Expression → Expression → Prop}
    (each : ∀ operator fused own, Factor.whole operator fused own ∈ factors →
      alike fused own ∧ alike fused.negate own.negate) :
    ∀ operator fused own, Factor.whole operator fused own ∈ negateFactors precedence factors → alike fused own := by
  intro operator fused own member
  rcases mem_negateFactors member with ⟨first, inside, same⟩ | inside | ⟨_, later, inside, same⟩
  · cases first with
    | whole _ _ _ =>
        cases same
        exact (each _ _ _ inside).2
    | fraction _ _ _ => cases same
  · exact (each _ _ _ inside).1
  · cases later with
    | whole _ _ _ =>
        cases same
        exact (each _ _ _ inside).1
    | fraction _ _ _ => cases same

theorem Alike.negate (alike : Alike powers fused own) : Alike powers fused.negate own.negate := by
  induction alike with
  | quantity value => exact .quantity (-value)
  | @fraction n d nonzero =>
      rw [negate_chainOf, neg_literal, ← neg_div]
      exact .fraction nonzero
  | chain noPower several fits each ih =>
      rw [negate_chainOf, negate_chainOf, ← fusedSteps_negate, ← ownSteps_negate fits]
      refine .chain noPower ?_ fits.negate (each_negate fun operator fused own member =>
        ⟨each operator fused own member, ih operator fused own member⟩)
      rw [length_negateFactors]
      exact several
  | tower nonempty each _ => exact .negation (.tower nonempty each)
  | negation part _ => exact part

theorem Splits.negate (splits : Splits powers precedence factors fused own) (fusedTidy : fused.Tidy)
    (tidy : own.Tidy) :
    Splits powers precedence (negateFactors precedence factors) fused.negate own.negate where
  fusedLinks := by
    rw [fusedSteps_negate]
    exact start_negate_of_links fusedTidy splits.fusedLinks
  ownLinks := by
    rw [ownSteps_negate splits.fits]
    exact start_negate_of_links tidy splits.ownLinks
  fits := splits.fits.negate
  each := each_negate fun operator fused own member =>
    ⟨splits.each operator fused own member, (splits.each operator fused own member).negate⟩

/-! ### Sums and products -/

theorem Splits.single (alike : Alike powers fused own) (fusedFlat : fused.isChainOf precedence = false)
    (flat : own.isChainOf precedence = false) :
    ∃ operator, Splits powers precedence [.whole operator fused own] fused own := by
  obtain ⟨operator, isOf, forward⟩ : ∃ operator : Operator,
      operator.precedence = precedence ∧ operator.forward = operator := by
    cases precedence with
    | sum => exact ⟨.add, rfl, rfl⟩
    | product => exact ⟨.multiply, rfl, rfl⟩
    | power => exact ⟨.raise, rfl, rfl⟩
  refine ⟨operator, Links.start_of_flat fusedFlat, Links.start_of_flat flat, ?_, ?_⟩
  · refine ⟨List.cons_ne_nil _ _, fun first isHead => ?_, List.forall_mem_singleton.mpr isOf, fun _ _ _ member => ?_,
      ⟨(fun hasFraction => by cases hasFraction), trivial⟩⟩
    · obtain rfl : Factor.whole operator fused own = first := Option.some.inj isHead
      exact forward
    · cases List.mem_singleton.mp member
  · intro other inner operand member
    cases List.mem_singleton.mp member
    exact alike

theorem splits_fraction {n d : Rat} (nonzero : d ≠ 0) :
    Splits powers .product [.fraction .multiply n d] (literal (n / d))
      (chainOf .product [(.multiply, literal n), (.divide, literal d)]) := by
  refine ⟨rfl, rfl, ⟨List.cons_ne_nil _ _, fun first isHead => ?_, List.forall_mem_singleton.mpr rfl,
    fun _ _ _ member => ?_, ⟨fun _ => trivial, trivial⟩⟩, fun _ _ _ member => ?_⟩
  · obtain rfl : Factor.fraction .multiply n d = first := Option.some.inj isHead
    rfl
  · cases List.mem_singleton.mp member
    exact ⟨rfl, nonzero⟩
  · cases List.mem_singleton.mp member

/-- In a sum everything is an operand, fractions included. -/
theorem Alike.exists_sum (alike : Alike powers fused own) : ∃ factors, Splits powers .sum factors fused own := by
  have single (fusedFlat : fused.isChainOf .sum = false) (flat : own.isChainOf .sum = false) :
      ∃ factors, Splits powers .sum factors fused own :=
    (Splits.single alike fusedFlat flat).elim fun _ splits => ⟨_, splits⟩
  cases alike with
  | @chain inner noPower factors several fits each =>
      by_cases isSum : inner = .sum
      · subst isSum
        exact ⟨factors, start_chainOf _ _, start_chainOf _ _, fits, each⟩
      · exact single (decide_eq_false isSum) (decide_eq_false isSum)
  | _ => exact single rfl rfl

theorem Alike.isNegation (alike : Alike powers fused own) : fused.isNegation = own.isNegation := by
  cases alike <;> rfl

section Join

variable {operator : Operator} {first second : List Factor} {fusedRight right : Expression}

private theorem Alike.join_sum_unsigned (isSum : operator.precedence = .sum) (left : Alike powers fused own)
    (alike : Alike powers fusedRight right) (noSign : right.isNegation = false) :
    Alike powers (fused.join operator fusedRight) (own.join operator right) := by
  obtain ⟨first, leftSplits⟩ := left.exists_sum
  obtain ⟨second, rightSplits⟩ := alike.exists_sum
  refine (leftSplits.join isSum (fun same => by cases same) rightSplits (alike.isNegation.trans noSign) noSign
    fun hasFraction => ?_).1
  obtain ⟨factor, member, isFraction⟩ := List.any_eq_true.mp hasFraction
  cases factor with
  | whole _ _ _ => cases isFraction
  | fraction _ _ _ => exact (rightSplits.fits.noFraction member).elim

theorem Alike.join_sum (isSum : operator.precedence = .sum) (left : Alike powers fused own)
    (alike : Alike powers fusedRight right) (tidy : right.Tidy) :
    Alike powers (fused.join operator fusedRight) (own.join operator right) := by
  cases sign : right.isNegation with
  | false => exact left.join_sum_unsigned isSum alike sign
  | true =>
      cases alike with
      | @negation fusedInner inner part =>
          rw [join_negation_sum isSum, join_negation_sum isSum]
          exact left.join_sum_unsigned (operator.precedence_opposite.trans isSum) part (isNegation_of_tidy tidy)
      | _ => cases sign

/-- A product of two products has the fractions of both. -/
theorem Splits.join_product (isProduct : operator.precedence = .product)
    (left : Splits powers .product first fused own) (fusedRegular : fused.Regular) (regular : own.Regular)
    (alike : Alike powers fusedRight right) (splitsRight : Splits powers .product second fusedRight right)
    (fusedTidy : fusedRight.Tidy) (tidy : right.Tidy)
    (exact : second.any Factor.isFraction = true → own.Exact powers) :
    Alike powers (fused.join operator fusedRight) (own.join operator right) ∧
      ∃ factors, Splits powers .product factors (fused.join operator fusedRight) (own.join operator right) ∧
        (factors.any Factor.isFraction = true →
          first.any Factor.isFraction = true ∨ second.any Factor.isFraction = true) := by
  have noPower : Precedence.product ≠ .power := fun same => by cases same
  cases sign : right.isNegation with
  | false =>
      obtain ⟨joined, splits⟩ :=
        left.join isProduct noPower splitsRight (alike.isNegation.trans sign) sign exact
      refine ⟨joined, _, splits, fun hasFraction => ?_⟩
      rwa [List.any_append, any_isFraction_through, Bool.or_eq_true] at hasFraction
  | true =>
      -- The sign moves to the left, and what is left of the right operand is no chain: it brings no fraction along.
      cases alike with
      | @negation fusedInner inner part =>
          rw [join_negation_product isProduct fusedRegular fusedTidy, join_negation_product isProduct regular tidy]
          obtain ⟨single, splitsInner⟩ :=
            Splits.single part (isChainOf_of_tidy fusedTidy .product) (isChainOf_of_tidy tidy .product)
          obtain ⟨joined, splits⟩ := (left.negate (fusedRegular.tidy trivial) (regular.tidy trivial)).join
            isProduct noPower splitsInner (isNegation_of_tidy fusedTidy) (isNegation_of_tidy tidy)
            fun hasFraction => by cases hasFraction
          refine ⟨joined, _, splits, fun hasFraction => Or.inl ?_⟩
          rw [List.any_append, any_isFraction_negate, any_isFraction_through, Bool.or_eq_true] at hasFraction
          exact hasFraction.resolve_right fun none => by cases none
      | _ => cases sign

end Join

end QuantityCalculator.Expression
