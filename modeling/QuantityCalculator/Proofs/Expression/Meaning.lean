import QuantityCalculator.Proofs.Amount.Chain
import QuantityCalculator.Proofs.Expression.WellFormed

/-!
The amount that an expression stands for.

Given amounts for variables and results, an expression stands for the amount that its chains and towers
make of those of its operands.  Splicing chains and moving signs keeps it.
-/

namespace QuantityCalculator

structure Valuation where
  var : String → Option Amount
  output : Nat → Option Amount

namespace Expression

mutual

def amount? (values : Valuation) : Expression → Option Amount
  | .quantity value => Amount.ofQuantity? value
  | .var name => values.var name
  | .output index => values.output index
  | .chain _ operands operators => (amounts? values operands).bind (Amount.chain? operators)
  | .tower operands => (amounts? values operands).bind Amount.tower?
  | .negation operand => (amount? values operand).map (-·)

def amounts? (values : Valuation) : List Expression → Option (List Amount)
  | [] => some []
  | first :: rest =>
    (amount? values first).bind fun amount => (amounts? values rest).map (amount :: ·)

end

/-- What an expression contributes to a product: that of a product before its divisions. -/
def fraction? (values : Valuation) : Expression → Option Fraction
  | .chain .product operands operators => (amounts? values operands).bind (Amount.product? operators)
  | other => (other.amount? values).map Fraction.of

variable {values : Valuation}

theorem amounts?_eq_some {operands : List Expression} {amounts : List Amount} :
    amounts? values operands = some amounts ↔
      List.Forall₂ (fun operand amount => amount? values operand = some amount) operands amounts := by
  induction operands generalizing amounts with
  | nil =>
      rw [List.forall₂_nil_left_iff]
      exact ⟨fun found => (Option.some.inj found).symm, fun empty => congrArg some empty.symm⟩
  | cons first rest ih =>
      rw [List.forall₂_cons_left_iff]
      simp only [amounts?, Option.bind_eq_some_iff, Option.map_eq_some_iff]
      constructor
      · rintro ⟨amount, found, later, foundLater, rfl⟩
        exact ⟨amount, later, found, ih.mp foundLater, rfl⟩
      · rintro ⟨amount, later, found, foundLater, rfl⟩
        exact ⟨amount, found, later, ih.mpr foundLater, rfl⟩

private theorem length_of_amounts? {operands : List Expression} {amounts : List Amount}
    (found : amounts? values operands = some amounts) : amounts.length = operands.length :=
  (amounts?_eq_some.mp found).length_eq.symm

theorem amounts?_append (first second : List Expression) :
    amounts? values (first ++ second) =
      (amounts? values first).bind fun amounts => (amounts? values second).map (amounts ++ ·) := by
  induction first with
  | nil => exact Option.map_id'.symm
  | cons operand rest ih =>
      simp only [List.cons_append, amounts?, ih]
      cases amount? values operand with
      | none => rfl
      | some amount =>
          cases amounts? values rest with
          | none => rfl
          | some amounts => cases amounts? values second <;> rfl

/-- A tower is its base raised to the tower behind it. -/
theorem amount?_tower_cons (base : Expression) {rest : List Expression} (nonempty : rest ≠ []) :
    (Expression.tower (base :: rest)).amount? values =
      (base.amount? values).bind fun first =>
        ((Expression.tower rest).amount? values).bind fun exponent => first.raise? exponent := by
  simp only [amount?, amounts?]
  cases base.amount? values with
  | none => rfl
  | some first =>
      cases found : amounts? values rest with
      | none => rfl
      | some amounts =>
          cases amounts with
          | nil =>
              have empty := length_of_amounts? found
              exact absurd (List.length_eq_zero_iff.mp empty.symm) nonempty
          | cons next later => rfl

/-! ### Fractions -/

theorem amount?_eq_settle {expression : Expression} (wellFormed : expression.WellFormed) :
    expression.amount? values = (expression.fraction? values).bind Fraction.settle? := by
  have plain : ∀ amount? : Option Amount, amount? = (amount?.map Fraction.of).bind Fraction.settle? := by
    intro amount?
    cases amount? <;> rfl
  cases wellFormed with
  | @chain precedence operands operators noPower single count _ parts =>
      cases precedence with
      | product =>
          simp only [amount?, fraction?, Option.bind_assoc]
          congr 1
          funext amounts
          exact Amount.chain?_product single amounts
      | sum => exact plain _
      | power => exact plain _
  | quantity value => exact plain _
  | var name => exact plain _
  | output index => exact plain _
  | tower _ parts => exact plain _
  | negation _ part => exact plain _

private theorem fraction?_of_amount? {expression : Expression} (wellFormed : expression.WellFormed)
    {amount : Amount} (found : expression.amount? values = some amount) :
    expression.fraction? values = some (Fraction.of amount) := by
  rw [amount?_eq_settle wellFormed, Option.bind_eq_some_iff] at found
  obtain ⟨fraction, foundFraction, settled⟩ := found
  rw [foundFraction, Fraction.settle?_eq_some.mp settled]

/-! ### Negation -/

theorem amount?_negate {expression : Expression} (wellFormed : expression.WellFormed) :
    expression.negate.amount? values = (expression.amount? values).map (-·) := by
  induction wellFormed with
  | quantity value =>
      obtain ⟨magnitude, dimension⟩ := value
      cases magnitude <;> rfl
  | var name => rfl
  | output index => rfl
  | @chain precedence operands operators noPower single count _ parts ih =>
      cases operands with
      | nil => cases count
      | cons first rest =>
          have negatedFirst := ih first List.mem_cons_self
          simp only [negate, amount?, amounts?, negatedFirst]
          cases first.amount? values with
          | none => rfl
          | some amount =>
              cases amounts? values rest with
              | none => rfl
              | some amounts =>
                  cases precedence with
                  | sum =>
                      change Amount.total? (some (-amount)) ((operators.map _).zip amounts) = _
                      rw [Amount.zip_through]
                      exact Amount.total?_neg_sum
                        (fun term member => single term.1 (List.of_mem_zip member).1) amount
                  | product =>
                      change Amount.chain? operators (-amount :: amounts) =
                        (Amount.chain? operators (amount :: amounts)).map (-·)
                      rw [Amount.chain?_product single, Amount.chain?_product single, Amount.product?_neg]
                      exact Fraction.settle?_neg _
                  | power => exact absurd rfl noPower
  | tower _ parts _ => rfl
  | @negation operand _ part _ =>
      change operand.amount? values = ((operand.amount? values).map (-·)).map (-·)
      cases operand.amount? values with
      | none => rfl
      | some amount => exact congrArg some (neg_neg amount).symm

theorem fraction?_negate {expression : Expression} (wellFormed : expression.WellFormed)
    (tidy : expression.Tidy) :
    expression.negate.fraction? values = (expression.fraction? values).map (-·) := by
  have plain : ∀ amount? : Option Amount,
      (amount?.map (-·)).map Fraction.of = (amount?.map Fraction.of).map (-·) := by
    intro amount?
    cases amount? <;> rfl
  have cancelled : ∀ amount? : Option Amount,
      amount?.map Fraction.of = ((amount?.map (-·)).map Fraction.of).map (-·) := by
    intro amount?
    cases amount? with
    | none => rfl
    | some amount => exact congrArg some (congrArg Fraction.of (neg_neg amount).symm)
  cases wellFormed with
  | quantity value =>
      change (amount? values (Expression.quantity value).negate).map Fraction.of = _
      rw [amount?_negate (.quantity value trivial)]
      exact plain _
  | var name => exact plain (values.var name)
  | output index => exact plain (values.output index)
  | @chain precedence operands operators noPower single count spliced parts =>
      cases operands with
      | nil => cases count
      | cons first rest =>
          cases precedence with
          | sum =>
              change (amount? values (Expression.chain .sum (first :: rest) operators).negate).map _ = _
              rw [amount?_negate (.chain noPower single count spliced parts)]
              exact plain _
          | product =>
              simp only [negate, fraction?, amounts?, amount?_negate (parts first List.mem_cons_self)]
              cases first.amount? values with
              | none => rfl
              | some amount =>
                  cases amounts? values rest with
                  | none => rfl
                  | some amounts => exact Amount.product?_neg operators amount amounts
          | power => exact absurd rfl noPower
  | tower _ parts => exact plain _
  | @negation operand _ part =>
      cases operand with
      | var name => exact cancelled (values.var name)
      | output index => exact cancelled (values.output index)
      | tower operands => exact cancelled _
      | _ => exact tidy.elim

/-! ### Joining -/

def Links.amount? (values : Valuation) (links : Links) : Option Amount :=
  (amounts? values links.operands).bind (Amount.chain? links.operators)

def Links.fraction? (values : Valuation) (links : Links) : Option Fraction :=
  (amounts? values links.operands).bind (Amount.product? links.operators)

variable (values)

private theorem Links.amount?_append_sum (left right : Links) {outer : Operator}
    (outerIsSum : outer.precedence = .sum)
    (isSum : ∀ operator, operator ∈ right.operators → operator.precedence = .sum)
    (count : left.operands.length = left.operators.length + 1)
    (rightCount : right.operands.length = right.operators.length + 1) :
    Links.amount? values
        { operands := left.operands ++ right.operands
          operators := left.operators ++ outer :: right.operators.map (outer.through ·) } =
      (left.amount? values).bind fun known =>
        (right.amount? values).bind fun group => Amount.combine? outer known group := by
  simp only [Links.amount?, amounts?_append]
  cases found : amounts? values left.operands with
  | none => rfl
  | some amounts =>
      cases foundRight : amounts? values right.operands with
      | none =>
          simp
      | some next =>
          have length := (length_of_amounts? found).trans count
          have rightLength := (length_of_amounts? foundRight).trans rightCount
          exact Amount.chain?_append_sum outerIsSum isSum length rightLength

theorem Links.fraction?_append (left right : Links) {outer : Operator}
    (outerIsProduct : outer.precedence = .product)
    (isProduct : ∀ operator, operator ∈ right.operators → operator.precedence = .product)
    (count : left.operands.length = left.operators.length + 1)
    (rightCount : right.operands.length = right.operators.length + 1) :
    Links.fraction? values
        { operands := left.operands ++ right.operands
          operators := left.operators ++ outer :: right.operators.map (outer.through ·) } =
      (left.fraction? values).bind fun known =>
        (right.fraction? values).map fun group => known * Fraction.share outer group := by
  simp only [Links.fraction?, amounts?_append]
  cases found : amounts? values left.operands with
  | none => rfl
  | some amounts =>
      cases foundRight : amounts? values right.operands with
      | none => simp
      | some next =>
          have length := (length_of_amounts? found).trans count
          have rightLength := (length_of_amounts? foundRight).trans rightCount
          exact Amount.product?_append outerIsProduct isProduct length rightLength

private theorem Links.amount?_alone (expression : Expression) :
    Links.amount? values { operands := [expression], operators := [] } = expression.amount? values := by
  simp only [Links.amount?, amounts?]
  cases expression.amount? values <;> rfl

private theorem Links.fraction?_alone (expression : Expression) :
    Links.fraction? values { operands := [expression], operators := [] } =
      (expression.amount? values).map Fraction.of := by
  simp only [Links.fraction?, amounts?]
  cases expression.amount? values with
  | none => rfl
  | some amount => exact congrArg some (mul_one _)

private theorem Links.amount?_push {links : Links} {operator : Operator} (isSum : operator.precedence = .sum)
    (linksWellFormed : links.WellFormed .sum) (other : Expression) :
    Links.amount? values
        { operands := links.operands ++ [other], operators := links.operators ++ [operator] } =
      (links.amount? values).bind fun known =>
        (other.amount? values).bind fun amount => Amount.combine? operator known amount := by
  rw [← amount?_alone values other]
  exact amount?_append_sum values links { operands := [other], operators := [] } isSum
    (fun _ member => (List.not_mem_nil member).elim) linksWellFormed.count rfl

private theorem Links.fraction?_push {links : Links} {operator : Operator}
    (isProduct : operator.precedence = .product) (linksWellFormed : links.WellFormed .product)
    (other : Expression) :
    Links.fraction? values
        { operands := links.operands ++ [other], operators := links.operators ++ [operator] } =
      (links.fraction? values).bind fun known =>
        ((other.amount? values).map Fraction.of).map fun group =>
          known * Fraction.share operator group := by
  rw [← fraction?_alone values other]
  exact fraction?_append values links { operands := [other], operators := [] } isProduct
    (fun _ member => (List.not_mem_nil member).elim) linksWellFormed.count rfl

private theorem Links.amount?_start (expression : Expression) :
    (Links.start .sum expression).amount? values = expression.amount? values := by
  cases expression with
  | chain precedence operands operators =>
      by_cases same : precedence = .sum
      · simp only [Links.start, if_pos same]
        rfl
      · simp only [Links.start, if_neg same]
        exact amount?_alone values _
  | _ => exact amount?_alone values _

private theorem Links.fraction?_start (expression : Expression) :
    (Links.start .product expression).fraction? values = expression.fraction? values := by
  cases expression with
  | chain precedence operands operators =>
      cases precedence with
      | product => rfl
      | sum => exact fraction?_alone values _
      | power => exact fraction?_alone values _
  | _ => exact fraction?_alone values _

private theorem combine?_neg {operator : Operator} (isSum : operator.precedence = .sum) (left right : Amount) :
    Amount.combine? operator left (-right) = Amount.combine? operator.opposite left right := by
  cases operator with
  | add => simp [Amount.combine?, Operator.opposite, Amount.dimension_neg, sub_eq_add_neg]
  | subtract => simp [Amount.combine?, Operator.opposite, Amount.dimension_neg]
  | multiply => cases isSum
  | divide => cases isSum
  | raise => cases isSum

private theorem Links.amount?_extend {links : Links} {operator : Operator} {expression : Expression}
    (isSum : operator.precedence = .sum) (linksWellFormed : links.WellFormed .sum)
    (wellFormed : expression.WellFormed) :
    (links.extend .sum operator expression).amount? values =
      (links.amount? values).bind fun known =>
        (expression.amount? values).bind fun amount => Amount.combine? operator known amount := by
  induction wellFormed generalizing operator with
  | @chain inner operands operators noPower single count _ parts _ =>
      by_cases same : inner = .sum
      · subst same
        simp only [Links.extend, if_pos]
        exact amount?_append_sum values links { operands, operators } isSum single
          linksWellFormed.count count
      · simp only [Links.extend, if_neg same]
        exact amount?_push values isSum linksWellFormed _
  | @negation operand _ part ih =>
      have oppositeIsSum := (Operator.precedence_opposite operator).trans isSum
      simp only [Links.extend, if_pos, ih oppositeIsSum, Expression.amount?, Option.bind_map]
      congr 1
      funext known
      congr 1
      funext amount
      exact (combine?_neg isSum known amount).symm
  | quantity value => exact amount?_push values isSum linksWellFormed _
  | var name => exact amount?_push values isSum linksWellFormed _
  | output index => exact amount?_push values isSum linksWellFormed _
  | tower _ parts _ => exact amount?_push values isSum linksWellFormed _

theorem amount?_join_sum {left right : Expression} {operator : Operator}
    (isSum : operator.precedence = .sum) (leftWellFormed : left.WellFormed)
    (rightWellFormed : right.WellFormed) :
    (left.join operator right).amount? values =
      (left.amount? values).bind fun known =>
        (right.amount? values).bind fun amount => Amount.combine? operator known amount := by
  have extended := Links.amount?_extend values isSum
    (Links.start_formed .sum leftWellFormed) rightWellFormed
  rw [Links.amount?_start] at extended
  unfold join
  rw [isSum]
  exact extended

private theorem Links.fraction?_negateFirst {links : Links}
    (parts : ∀ operand, operand ∈ links.operands → operand.WellFormed) :
    Links.fraction? values { operands := negateFirst links.operands, operators := links.operators } =
      (links.fraction? values).map (-·) := by
  obtain ⟨operands, operators⟩ := links
  cases operands with
  | nil => rfl
  | cons first rest =>
      simp only [Links.fraction?, negateFirst, amounts?, amount?_negate (parts first List.mem_cons_self)]
      cases first.amount? values with
      | none => rfl
      | some amount =>
          cases amounts? values rest with
          | none => rfl
          | some amounts => exact Amount.product?_neg operators amount amounts

private theorem mul_share_neg (operator : Operator) (left right : Fraction) :
    -left * Fraction.share operator right = left * Fraction.share operator (-right) := by
  have negated : Fraction.share operator (-right) = -Fraction.share operator right := by
    unfold Fraction.share
    split
    · exact Fraction.inv_neg right
    · rfl
  rw [negated, Fraction.neg_mul, mul_comm left (-_), Fraction.neg_mul, mul_comm]

/-- A product is extended by what the operand contributes to it, whether or not its divisions could be
carried out. -/
theorem Links.fraction?_extend {links : Links} {operator : Operator} {expression : Expression}
    (isProduct : operator.precedence = .product) (linksWellFormed : links.WellFormed .product)
    (wellFormed : expression.WellFormed) :
    (links.extend .product operator expression).fraction? values =
      (links.fraction? values).bind fun known =>
        (expression.fraction? values).map fun group => known * Fraction.share operator group := by
  cases wellFormed with
  | @chain inner operands operators noPower single count _ parts =>
      cases inner with
      | product =>
          exact fraction?_append values links { operands, operators } isProduct single
            linksWellFormed.count count
      | sum => exact fraction?_push values isProduct linksWellFormed _
      | power => exact absurd rfl noPower
  | @negation operand _ part =>
      refine (fraction?_push values isProduct (negateFirst_formed linksWellFormed) operand).trans ?_
      rw [fraction?_negateFirst values linksWellFormed.parts]
      simp only [Expression.fraction?, Expression.amount?]
      cases links.fraction? values with
      | none => rfl
      | some known =>
          cases operand.amount? values with
          | none => rfl
          | some amount => exact congrArg some (mul_share_neg operator known (Fraction.of amount))
  | quantity value => exact fraction?_push values isProduct linksWellFormed _
  | var name => exact fraction?_push values isProduct linksWellFormed _
  | output index => exact fraction?_push values isProduct linksWellFormed _
  | tower _ parts => exact fraction?_push values isProduct linksWellFormed _

theorem fraction?_join {left right : Expression} {operator : Operator}
    (isProduct : operator.precedence = .product) (leftWellFormed : left.WellFormed)
    (rightWellFormed : right.WellFormed) :
    (left.join operator right).fraction? values =
      (left.fraction? values).bind fun known =>
        (right.fraction? values).map fun group => known * Fraction.share operator group := by
  have extended := Links.fraction?_extend values isProduct
    (Links.start_formed .product leftWellFormed) rightWellFormed
  rw [Links.fraction?_start] at extended
  unfold join
  rw [isProduct]
  exact extended

/-! ### Joining several -/

structure IsTerm (step : Operator × Expression) (term : Operator × Amount) : Prop where
  operator : step.1 = term.1
  wellFormed : step.2.WellFormed
  amount : step.2.amount? values = some term.2

variable {values} {first : Expression} {steps : List (Operator × Expression)}
  {terms : List (Operator × Amount)}

theorem exists_term (areTerms : List.Forall₂ (IsTerm values) steps terms)
    {step : Operator × Expression} (member : step ∈ steps) : ∃ term, term ∈ terms ∧ IsTerm values step term := by
  induction areTerms with
  | nil => cases member
  | @cons other term rest later isTerm _ ih =>
      rcases List.mem_cons.mp member with same | inRest
      · exact ⟨term, List.mem_cons_self, same ▸ isTerm⟩
      · obtain ⟨found, inLater, foundIsTerm⟩ := ih inRest
        exact ⟨found, List.mem_cons_of_mem _ inLater, foundIsTerm⟩

private theorem exists_step (areTerms : List.Forall₂ (IsTerm values) steps terms)
    {term : Operator × Amount} (member : term ∈ terms) : ∃ step, step ∈ steps ∧ IsTerm values step term := by
  induction areTerms with
  | nil => cases member
  | @cons step other rest later isTerm _ ih =>
      rcases List.mem_cons.mp member with same | inLater
      · exact ⟨step, List.mem_cons_self, same ▸ isTerm⟩
      · obtain ⟨found, inRest, foundIsTerm⟩ := ih inLater
        exact ⟨found, List.mem_cons_of_mem _ inRest, foundIsTerm⟩

private theorem amount?_joinSteps_sum (isSum : ∀ step, step ∈ steps → step.1.precedence = .sum)
    (firstWellFormed : first.WellFormed) (areTerms : List.Forall₂ (IsTerm values) steps terms) :
    (joinSteps first steps).amount? values =
      (first.amount? values).bind fun known => Amount.total? (some known) terms := by
  induction areTerms generalizing first with
  | nil => exact (Option.bind_fun_some _).symm
  | @cons step term rest later isTerm _ ih =>
      obtain ⟨operator, wellFormed, amount⟩ := isTerm
      have stepIsSum := isSum step List.mem_cons_self
      have noPower : step.1.precedence ≠ .power := by rw [stepIsSum]; decide
      change (joinSteps (first.join step.1 step.2) rest).amount? values = _
      rw [ih (fun other member => isSum other (List.mem_cons_of_mem _ member))
        (join_formed noPower firstWellFormed wellFormed),
        amount?_join_sum values stepIsSum firstWellFormed wellFormed, amount, operator, Option.bind_assoc]
      rfl

private theorem fraction?_joinSteps (isProduct : ∀ step, step ∈ steps → step.1.precedence = .product)
    (firstWellFormed : first.WellFormed) (areTerms : List.Forall₂ (IsTerm values) steps terms) :
    (joinSteps first steps).fraction? values =
      (first.fraction? values).map (· * (terms.map Amount.factor).prod) := by
  induction areTerms generalizing first with
  | nil =>
      change first.fraction? values = (first.fraction? values).map (· * 1)
      cases first.fraction? values with
      | none => rfl
      | some fraction => exact congrArg some (mul_one fraction).symm
  | @cons step term rest later isTerm _ ih =>
      obtain ⟨operator, wellFormed, amount⟩ := isTerm
      have stepIsProduct := isProduct step List.mem_cons_self
      have noPower : step.1.precedence ≠ .power := by rw [stepIsProduct]; decide
      change (joinSteps (first.join step.1 step.2) rest).fraction? values = _
      rw [ih (fun other member => isProduct other (List.mem_cons_of_mem _ member))
        (join_formed noPower firstWellFormed wellFormed),
        fraction?_join values stepIsProduct firstWellFormed wellFormed,
        fraction?_of_amount? wellFormed amount, operator, List.map_cons, List.prod_cons]
      cases first.fraction? values with
      | none => rfl
      | some fraction => exact congrArg some (mul_assoc _ _ _)

/-- Joined operands stand for what their amounts add up or multiply to. -/
theorem amount?_joinSteps {precedence : Precedence} (noPower : precedence ≠ .power)
    (single : ∀ step, step ∈ steps → step.1.precedence = precedence)
    (firstWellFormed : first.WellFormed) {known : Amount} (found : first.amount? values = some known)
    (areTerms : List.Forall₂ (IsTerm values) steps terms) :
    (joinSteps first steps).amount? values = Amount.total? (some known) terms := by
  cases precedence with
  | sum =>
      rw [amount?_joinSteps_sum single firstWellFormed areTerms, found]
      rfl
  | product =>
      have termsSingle : ∀ term, term ∈ terms → term.1.precedence = .product := by
        intro term member
        obtain ⟨step, stepMember, isTerm⟩ := exists_step areTerms member
        rw [← isTerm.operator]
        exact single step stepMember
      have wellFormed : (joinSteps first steps).WellFormed := by
        apply joinSteps_formed _ firstWellFormed
        · intro step member
          obtain ⟨term, _, isTerm⟩ := exists_term areTerms member
          exact isTerm.wellFormed
        · intro step member
          rw [single step member]
          exact noPower
      rw [amount?_eq_settle wellFormed, fraction?_joinSteps single firstWellFormed areTerms,
        fraction?_of_amount? firstWellFormed found, Amount.total?_some_product termsSingle]
      rfl
  | power => exact absurd rfl noPower

end Expression
end QuantityCalculator
