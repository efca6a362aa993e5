import QuantityCalculator.Proofs.Expression.Fraction
import QuantityCalculator.Proofs.Formula.Fraction
import QuantityCalculator.Proofs.Formula.Regular

/-!
What stands in front of fractions.

A fraction joins the product that it stands in as one factor, where a numerator and a denominator would be two.
That makes no difference if everything in front of it is exact.
-/

namespace QuantityCalculator.Formula

open Expression (Alike Exact Factor Splits)

def isSignedNumeral : Formula → Bool
  | .quantity _ => true
  | .minus operand => operand.isSignedNumeral
  | _ => false

/-- What a product that ends with a numeral has in front of it. -/
def beforeNumeral? : Formula → Option (List Formula)
  | .binary .multiply left right => if right.isSignedNumeral then some [left] else none
  | formula => if formula.isSignedNumeral then some [] else none

def isQuantity : Formula → Bool
  | .quantity _ => true
  | _ => false

/-- Where a numeral is divided by another one, everything is exact that its product has in front of it.  `front` is
what stands in front of the formula, in the product that is left when groups are opened. -/
def ExactInFront (powers : List Expression → Prop) (front : List Formula) : Formula → Prop
  | .minus operand => operand.ExactInFront powers front
  | .group content => content.ExactInFront powers front
  | .binary operator left right =>
    if operator.precedence = .product then
      left.ExactInFront powers front ∧ right.ExactInFront powers (left :: front) ∧
        (operator = .divide → right.isQuantity = true → ∀ before, left.beforeNumeral? = some before →
          ∀ factor, factor ∈ before ++ front → factor.normalize.Exact powers)
    else left.ExactInFront powers [] ∧ right.ExactInFront powers []
  | _ => True

variable {powers : List Expression → Prop} {front : List Formula} {fused formula : Formula}

/-- A product that ends with a numeral may be divided by a numeral if it is exact. -/
theorem exactInFront_quotient {left : Formula} {n d : Rat} (first : left.ExactInFront powers front)
    (exact : ∀ factor, factor ∈ left :: front → factor.normalize.Exact powers) :
    (Formula.binary .divide (.binary .multiply left (literal n)) (literal d)).ExactInFront powers front := by
  have times : (Formula.binary .multiply left (literal n)).ExactInFront powers front :=
    ⟨first, trivial, fun isDivision => by cases isDivision⟩
  refine ⟨times, trivial, fun _ _ before isBefore => ?_⟩
  obtain rfl : [left] = before := Option.some.inj isBefore
  exact exact

/-! ### Signs -/

private theorem normalize_signed (signs : Nat) (value : Rat) :
    (signed signs (literal value)).normalize = Expression.literal ((-1) ^ signs * value) := by
  induction signs with
  | zero =>
      rw [pow_zero, one_mul]
      rfl
  | succ signs ih =>
      rw [pow_succ', neg_one_mul, neg_mul, ← Expression.neg_literal, ← ih]
      rfl

private theorem isSignedNumeral_signed (signs : Nat) (value : Rat) :
    (signed signs (literal value)).isSignedNumeral = true := by
  induction signs with
  | zero => rfl
  | succ signs ih => exact ih

private theorem beforeNumeral?_signed (signs : Nat) (value : Rat) :
    (signed signs (literal value)).beforeNumeral? = some [] := by
  cases signs with
  | zero => rfl
  | succ signs => exact if_pos (isSignedNumeral_signed signs value)

private theorem towerOperands_signed (signs : Nat) (value : Rat) :
    (signed signs (literal value)).towerOperands = [(signed signs (literal value)).normalize] := by
  cases signs <;> rfl

/-! ### Normal forms -/

/-- The normal forms of two formulas differ in fractions only, in front of which everything is exact. -/
structure AlikeForms (powers : List Expression → Prop) (front : List Formula) (fused formula : Formula) : Prop where
  normal : Alike powers fused.normalize formula.normalize
  product : ∃ factors, Splits powers .product factors fused.normalize formula.normalize ∧
    (factors.any Factor.isFraction = true → ∀ factor, factor ∈ front → factor.normalize.Exact powers)
  powers : ∃ pairs : List (Expression × Expression), pairs ≠ [] ∧ fused.towerOperands = pairs.map Prod.fst ∧
    formula.towerOperands = pairs.map Prod.snd ∧ ∀ pair, pair ∈ pairs → Alike powers pair.1 pair.2

theorem AlikeForms.single (alike : Alike powers fused.normalize formula.normalize)
    (fusedFlat : fused.normalize.isChainOf .product = false) (flat : formula.normalize.isChainOf .product = false) :
    ∃ factors, Splits powers .product factors fused.normalize formula.normalize ∧
      (factors.any Factor.isFraction = true → ∀ factor, factor ∈ front → factor.normalize.Exact powers) := by
  obtain ⟨operator, splits⟩ := Splits.single alike fusedFlat flat
  exact ⟨_, splits, fun hasFraction => by cases hasFraction⟩

private theorem exists_pair (alike : Alike powers fused.normalize formula.normalize)
    (fusedAlone : fused.towerOperands = [fused.normalize]) (alone : formula.towerOperands = [formula.normalize]) :
    ∃ pairs : List (Expression × Expression), pairs ≠ [] ∧ fused.towerOperands = pairs.map Prod.fst ∧
      formula.towerOperands = pairs.map Prod.snd ∧ ∀ pair, pair ∈ pairs → Alike powers pair.1 pair.2 :=
  ⟨[(fused.normalize, formula.normalize)], List.cons_ne_nil _ _, fusedAlone, alone,
    List.forall_mem_singleton.mpr alike⟩

/-- A product that a fraction joins. -/
theorem join_fraction (left : Expression) (n d : Rat) :
    (left.join .multiply (.literal n)).join .divide (.literal d) =
      left.join .multiply (Expression.chainOf .product [(.multiply, .literal n), (.divide, .literal d)]) := by
  simp only [Expression.join, Expression.literal, Expression.chainOf, Expression.linksOf, Expression.Links.extend,
    Expression.Links.start, Operator.precedence, if_pos, List.append_assoc]
  rfl

theorem AlikeForms.minus (alike : AlikeForms powers front fused formula) :
    AlikeForms powers front (.minus fused) (.minus formula) := by
  obtain ⟨normal, ⟨factors, splits, inFront⟩, _⟩ := alike
  have negated : Alike powers (Formula.minus fused).normalize (Formula.minus formula).normalize := normal.negate
  refine ⟨negated, ⟨_, splits.negate (normalize_tidy fused) (normalize_tidy formula), fun hasFraction => inFront ?_⟩,
    exists_pair negated rfl rfl⟩
  rwa [Expression.any_isFraction_negate] at hasFraction

theorem AlikeForms.group (alike : AlikeForms powers front fused formula) :
    AlikeForms powers front (.group fused) (.group formula) :=
  ⟨alike.normal, alike.product, exists_pair alike.normal rfl rfl⟩

section Binary

variable {operator : Operator} {fusedRight right : Formula}

theorem AlikeForms.raise {others : List Formula} (left : AlikeForms powers front fused formula)
    (exponent : AlikeForms powers others fusedRight right) :
    AlikeForms powers [] (.binary .raise fused fusedRight) (.binary .raise formula right) := by
  obtain ⟨pairs, nonempty, isFused, isOwn, each⟩ := exponent.powers
  have fusedTower : (Formula.binary .raise fused fusedRight).normalize =
      .tower (((fused.normalize, formula.normalize) :: pairs).map Prod.fst) := by
    rw [normalize_raise, isFused, List.map_cons]
  have ownTower : (Formula.binary .raise formula right).normalize =
      .tower (((fused.normalize, formula.normalize) :: pairs).map Prod.snd) := by
    rw [normalize_raise, isOwn, List.map_cons]
  have both : ∀ pair, pair ∈ (fused.normalize, formula.normalize) :: pairs → Alike powers pair.1 pair.2 :=
    List.forall_mem_cons.mpr ⟨left.normal, each⟩
  have alike := Alike.tower (List.cons_ne_nil _ _) both
  rw [← fusedTower, ← ownTower] at alike
  refine ⟨alike, AlikeForms.single alike ?_ ?_, (fused.normalize, formula.normalize) :: pairs, List.cons_ne_nil _ _,
    ?_, ?_, both⟩
  · rw [fusedTower]
    rfl
  · rw [ownTower]
    rfl
  · rw [towerOperands, isFused, List.map_cons]
  · rw [towerOperands, isOwn, List.map_cons]

private theorem towerOperands_binary (noPower : operator.precedence ≠ .power) (left right : Formula) :
    (Formula.binary operator left right).towerOperands = [(Formula.binary operator left right).normalize] := by
  apply towerOperands_eq
  rintro base exponent same
  cases same
  exact noPower rfl

theorem AlikeForms.sum {leftFront rightFront : List Formula} (isSum : operator.precedence = .sum)
    (left : AlikeForms powers leftFront fused formula) (second : AlikeForms powers rightFront fusedRight right) :
    AlikeForms powers front (.binary operator fused fusedRight) (.binary operator formula right) := by
  have noPower : operator.precedence ≠ .power := by
    rw [isSum]
    decide
  have flat (left right : Formula) : (Formula.binary operator left right).normalize.isChainOf .product = false := by
    rw [normalize_binary noPower, Expression.join, isSum]
    rfl
  have joined := left.normal.join_sum isSum second.normal (normalize_tidy right)
  rw [← normalize_binary noPower, ← normalize_binary noPower] at joined
  exact ⟨joined, AlikeForms.single joined (flat _ _) (flat _ _),
    exists_pair joined (towerOperands_binary noPower _ _) (towerOperands_binary noPower _ _)⟩

private theorem AlikeForms.times (isProduct : operator.precedence = .product)
    (left : AlikeForms powers front fused formula) (second : AlikeForms powers (formula :: front) fusedRight right) :
    AlikeForms powers front (.binary operator fused fusedRight) (.binary operator formula right) := by
  have noPower : operator.precedence ≠ .power := by
    rw [isProduct]
    decide
  obtain ⟨first, leftSplits, inFront⟩ := left.product
  obtain ⟨others, rightSplits, allInFront⟩ := second.product
  obtain ⟨joined, factors, splits, origin⟩ :=
    leftSplits.join_product isProduct (normalize_regular fused) (normalize_regular formula) second.normal rightSplits
      (normalize_tidy fusedRight) (normalize_tidy right)
      fun hasFraction => allInFront hasFraction formula List.mem_cons_self
  rw [← normalize_binary noPower, ← normalize_binary noPower] at joined splits
  refine ⟨joined, ⟨factors, splits, fun hasFraction => ?_⟩,
    exists_pair joined (towerOperands_binary noPower _ _) (towerOperands_binary noPower _ _)⟩
  rcases origin hasFraction with inFirst | inSecond
  · exact inFront inFirst
  · exact fun factor member => allInFront inSecond factor (List.mem_cons_of_mem _ member)

end Binary

theorem AlikeForms.fraction {n d : Rat} (nonzero : d ≠ 0) (signs : Nat)
    (exact : ∀ factor, factor ∈ front → factor.normalize.Exact powers) :
    AlikeForms powers front (signed signs (literal (n / d)))
      (.binary .divide (signed signs (literal n)) (literal d)) := by
  have isFused := normalize_signed signs (n / d)
  rw [← mul_div_assoc] at isFused
  have isOwn : (Formula.binary .divide (signed signs (literal n)) (literal d)).normalize =
      Expression.chainOf .product [(.multiply, .literal ((-1) ^ signs * n)), (.divide, .literal d)] := by
    rw [normalize_binary (by decide), normalize_signed]
    rfl
  have alike : Alike powers (signed signs (literal (n / d))).normalize
      (Formula.binary .divide (signed signs (literal n)) (literal d)).normalize := by
    rw [isFused, isOwn]
    exact .fraction nonzero
  refine ⟨alike, ⟨[.fraction .multiply ((-1) ^ signs * n) d], ?_, fun _ => exact⟩,
    exists_pair alike (towerOperands_signed signs _) rfl⟩
  rw [isFused, isOwn]
  exact Expression.splits_fraction nonzero

private theorem AlikeForms.product_fraction {n d : Rat} (nonzero : d ≠ 0) (signs : Nat)
    (left : AlikeForms powers front fused formula)
    (exact : ∀ factor, factor ∈ formula :: front → factor.normalize.Exact powers) :
    AlikeForms powers front (.binary .multiply fused (signed signs (literal (n / d))))
      (.binary .divide (.binary .multiply formula (signed signs (literal n))) (literal d)) := by
  have noPower {operator : Operator} (isProduct : operator.precedence = .product) :
      operator.precedence ≠ .power := by
    rw [isProduct]
    decide
  obtain ⟨first, leftSplits, _⟩ := left.product
  have isOwn : (Formula.binary .divide (.binary .multiply formula (signed signs (literal n))) (literal d)).normalize =
      formula.normalize.join .multiply (Expression.chainOf .product
        [(.multiply, .literal ((-1) ^ signs * n)), (.divide, .literal d)]) := by
    rw [normalize_binary (noPower rfl), normalize_binary (noPower rfl), normalize_signed, ← join_fraction]
    rfl
  have isFused : (Formula.binary .multiply fused (signed signs (literal (n / d)))).normalize =
      fused.normalize.join .multiply (.literal ((-1) ^ signs * n / d)) := by
    rw [normalize_binary (noPower rfl), normalize_signed, mul_div_assoc]
  have isProduct : Operator.multiply.precedence = .product := rfl
  obtain ⟨joined, splits⟩ := leftSplits.join isProduct (by decide)
    (Expression.splits_fraction nonzero) rfl rfl fun _ => exact formula List.mem_cons_self
  rw [← isFused, ← isOwn] at joined splits
  exact ⟨joined, ⟨_, splits, fun _ factor member => exact factor (List.mem_cons_of_mem _ member)⟩,
    exists_pair joined (towerOperands_binary (noPower rfl) _ _) (towerOperands_binary (noPower rfl) _ _)⟩

private theorem beforeNumeral?_product (left : Formula) (signs : Nat) (value : Rat) :
    (Formula.binary .multiply left (signed signs (literal value))).beforeNumeral? = some [left] :=
  if_pos (isSignedNumeral_signed signs value)

theorem alikeForms_of_fuses (fuses : Fuses fused formula) (exact : formula.ExactInFront powers front) :
    AlikeForms powers front fused formula := by
  -- The front grows on the way to a right factor, and is empty again inside of sums and powers.
  induction fuses generalizing front with
  | quantity value =>
      have alike : Alike powers (Formula.quantity value).normalize (Formula.quantity value).normalize :=
        .quantity value
      exact ⟨alike, AlikeForms.single alike rfl rfl, exists_pair alike rfl rfl⟩
  | minus _ ih => exact (ih exact).minus
  | group _ ih => exact (ih exact).group
  | @binary operator fused left fusedRight right _ _ ihFirst ihSecond =>
      cases precedence : operator.precedence with
      | product =>
          rw [ExactInFront, if_pos precedence] at exact
          obtain ⟨leftExact, rightExact, _⟩ := exact
          exact (ihFirst leftExact).times precedence (ihSecond rightExact)
      | sum =>
          rw [ExactInFront, if_neg (by rw [precedence]; decide)] at exact
          exact (ihFirst exact.1).sum precedence (ihSecond exact.2)
      | power =>
          rw [ExactInFront, if_neg (by rw [precedence]; decide)] at exact
          cases operator with
          | raise =>
              obtain ⟨normal, _, powers⟩ := (ihFirst exact.1).raise (ihSecond exact.2)
              exact ⟨normal, AlikeForms.single normal rfl rfl, powers⟩
          | _ => cases precedence
  | fraction nonzero signs =>
      obtain ⟨_, _, inFront⟩ := exact
      exact .fraction nonzero signs (inFront rfl rfl [] (beforeNumeral?_signed signs _))
  | product nonzero signs _ ih =>
      obtain ⟨leftExact, _, inFront⟩ := exact
      exact (ih leftExact.1).product_fraction nonzero signs
        (inFront rfl rfl _ (beforeNumeral?_product _ signs _))

end QuantityCalculator.Formula
