import QuantityCalculator.Proofs.Amount.Fraction

/-!
Chains and towers of amounts.

A sum adds up if all of its terms have one dimension, and a product if none of its divisors is zero.  So
neither depends on the order of its terms.
-/

namespace QuantityCalculator.Amount

/-- What terms, each with the operator in front of it, make of a known amount.  Without one the first term
is applied to what it leaves unchanged. -/
def total? (known : Option Amount) : List (Operator × Amount) → Option Amount
  | [] => known
  | term :: rest => do
    let next ← combine? term.1 (known.getD (neutral term.1 term.2)) term.2
    total? (some next) rest

def chain? (operators : List Operator) : List Amount → Option Amount
  | [] => none
  | first :: rest => total? (some first) (operators.zip rest)

def tower? : List Amount → Option Amount
  | [] => none
  | [last] => some last
  | base :: next :: rest => (tower? (next :: rest)).bind base.raise?

variable {terms : List (Operator × Amount)} {total : Amount}

theorem total?_cons_some (known : Amount) (term : Operator × Amount) (rest : List (Operator × Amount)) :
    total? (some known) (term :: rest) =
      (combine? term.1 known term.2).bind fun next => total? (some next) rest :=
  rfl

/-- A forward operator takes up the first amount as it is. -/
theorem combine?_neutral {operator : Operator} (forward : operator.forward = operator)
    (noPower : operator.precedence ≠ .power) (amount : Amount) :
    combine? operator (neutral operator amount) amount = some amount := by
  obtain ⟨number, dimension⟩ := amount
  cases operator with
  | add => simp [combine?, neutral, Operator.precedence]
  | multiply => simp [combine?, neutral, Operator.precedence]
  | subtract => cases forward
  | divide => cases forward
  | raise => exact absurd rfl noPower

theorem total?_none_cons {operator : Operator} (forward : operator.forward = operator)
    (noPower : operator.precedence ≠ .power) (amount : Amount) (rest : List (Operator × Amount)) :
    total? none ((operator, amount) :: rest) = total? (some amount) rest := by
  change (combine? operator (neutral operator amount) amount).bind _ = _
  rw [combine?_neutral forward noPower]
  rfl

theorem total?_append (known : Amount) (first second : List (Operator × Amount)) :
    total? (some known) (first ++ second) =
      (total? (some known) first).bind fun next => total? (some next) second := by
  induction first generalizing known with
  | nil => rfl
  | cons term rest ih =>
      rw [List.cons_append, total?_cons_some, total?_cons_some, Option.bind_assoc]
      congr 1
      funext next
      exact ih next

/-! ### Sums -/

def turn (operator : Operator) (number : Rat) : Rat :=
  if operator = .subtract then -number else number

private theorem turn_add (operator : Operator) (left right : Rat) :
    turn operator (left + right) = turn operator left + turn operator right := by
  unfold turn
  split
  · exact neg_add left right
  · rfl

private theorem turn_through {outer inner : Operator} (outerIsSum : outer.precedence = .sum)
    (innerIsSum : inner.precedence = .sum) (number : Rat) :
    turn (outer.through inner) number = turn outer (turn inner number) := by
  cases outer <;> cases outerIsSum <;> cases inner <;> cases innerIsSum <;>
    simp [turn, Operator.through, Operator.forward, Operator.opposite]

def signed (term : Operator × Amount) : Rat :=
  turn term.1 term.2.number

theorem combine?_sum_eq_some {operator : Operator} (isSum : operator.precedence = .sum)
    {known amount : Amount} :
    combine? operator known amount = some total ↔
      known.dimension = total.dimension ∧ amount.dimension = total.dimension ∧
        total.number = known.number + signed (operator, amount) := by
  obtain ⟨number, dimension⟩ := known
  obtain ⟨other, vector⟩ := amount
  obtain ⟨result, unit⟩ := total
  cases operator with
  | add =>
      simp only [combine?, signed, turn, Option.ite_none_right_eq_some, Option.some.injEq, mk.injEq]
      constructor
      · rintro ⟨rfl, rfl, rfl⟩
        exact ⟨rfl, rfl, rfl⟩
      · rintro ⟨rfl, rfl, rfl⟩
        exact ⟨rfl, rfl, rfl⟩
  | subtract =>
      simp only [combine?, signed, turn, Option.ite_none_right_eq_some, Option.some.injEq, mk.injEq]
      constructor
      · rintro ⟨rfl, rfl, rfl⟩
        exact ⟨rfl, rfl, sub_eq_add_neg number other⟩
      · rintro ⟨rfl, rfl, rfl⟩
        exact ⟨rfl, sub_eq_add_neg number other, rfl⟩
  | multiply => cases isSum
  | divide => cases isSum
  | raise => cases isSum

private theorem total?_some_sum (isSum : ∀ term, term ∈ terms → term.1.precedence = .sum) {known : Amount} :
    total? (some known) terms = some total ↔
      known.dimension = total.dimension ∧ (∀ term, term ∈ terms → term.2.dimension = total.dimension) ∧
        total.number = known.number + (terms.map signed).sum := by
  induction terms generalizing known with
  | nil =>
      obtain ⟨number, dimension⟩ := known
      obtain ⟨result, unit⟩ := total
      simp [total?, and_comm, eq_comm]
  | cons term rest ih =>
      have first := isSum term List.mem_cons_self
      have later : ∀ other, other ∈ rest → other.1.precedence = .sum :=
        fun other member => isSum other (List.mem_cons_of_mem _ member)
      rw [total?_cons_some, Option.bind_eq_some_iff]
      simp only [List.mem_cons, forall_eq_or_imp, List.map_cons, List.sum_cons]
      constructor
      · rintro ⟨next, combined, totalled⟩
        obtain ⟨sameKnown, sameTerm, nextNumber⟩ := (combine?_sum_eq_some first).mp combined
        obtain ⟨sameNext, sameRest, number⟩ := (ih later).mp totalled
        refine ⟨sameKnown.trans sameNext, ⟨sameTerm.trans sameNext, sameRest⟩, ?_⟩
        rw [number, nextNumber, add_assoc]
      · rintro ⟨sameKnown, ⟨sameTerm, sameRest⟩, number⟩
        refine ⟨⟨known.number + signed term, total.dimension⟩, ?_, ?_⟩
        · exact (combine?_sum_eq_some first).mpr ⟨sameKnown, sameTerm, rfl⟩
        · refine (ih later).mpr ⟨rfl, sameRest, ?_⟩
          rw [number, add_assoc]

private theorem total?_none_sum (isSum : ∀ term, term ∈ terms → term.1.precedence = .sum)
    (nonempty : terms ≠ []) :
    total? none terms = some total ↔
      (∀ term, term ∈ terms → term.2.dimension = total.dimension) ∧
        total.number = (terms.map signed).sum := by
  cases terms with
  | nil => exact absurd rfl nonempty
  | cons term rest =>
      have sumNeutral : neutral term.1 term.2 = ⟨0, term.2.dimension⟩ := by
        unfold neutral
        rw [isSum term List.mem_cons_self]
      have start : total? none (term :: rest) = total? (some ⟨0, term.2.dimension⟩) (term :: rest) := by
        rw [← sumNeutral]
        rfl
      rw [start, total?_some_sum isSum, zero_add]
      simp only [List.mem_cons, forall_eq_or_imp]
      constructor
      · rintro ⟨-, same, number⟩
        exact ⟨same, number⟩
      · rintro ⟨same, number⟩
        exact ⟨same.1, same, number⟩

/-- The terms of a group, behind an operator that has moved into it. -/
def through (outer : Operator) (terms : List (Operator × Amount)) : List (Operator × Amount) :=
  terms.map fun term => (outer.through term.1, term.2)

theorem zip_through (outer : Operator) (operators : List Operator) (amounts : List Amount) :
    (operators.map (outer.through ·)).zip amounts = through outer (operators.zip amounts) := by
  unfold through
  rw [List.zip_map_left]
  rfl

private theorem zip_open {operators others : List Operator} {outer : Operator} {amounts next : List Amount}
    {first : Amount} (sameLength : operators.length = amounts.length) :
    (operators ++ outer :: others.map (outer.through ·)).zip (amounts ++ first :: next) =
      operators.zip amounts ++ (outer, first) :: through outer (others.zip next) := by
  rw [List.zip_append sameLength, List.zip_cons_cons, zip_through]

private theorem through_single {precedence : Precedence} {outer : Operator}
    (isOf : outer.precedence = precedence) (terms : List (Operator × Amount)) :
    ∀ term, term ∈ through outer terms → term.1.precedence = precedence := by
  intro term member
  obtain ⟨inner, _, rfl⟩ := List.mem_map.mp member
  exact (Operator.precedence_through outer inner.1).trans isOf

private theorem sum_signed_through {outer : Operator} (outerIsSum : outer.precedence = .sum)
    (isSum : ∀ term, term ∈ terms → term.1.precedence = .sum) :
    ((through outer terms).map signed).sum = turn outer (terms.map signed).sum := by
  induction terms with
  | nil =>
      change (0 : Rat) = turn outer 0
      unfold turn
      split
      · exact neg_zero.symm
      · rfl
  | cons term rest ih =>
      have later := ih fun other member => isSum other (List.mem_cons_of_mem _ member)
      have first : signed (outer.through term.1, term.2) = turn outer (signed term) :=
        turn_through outerIsSum (isSum term List.mem_cons_self) term.2.number
      change signed (outer.through term.1, term.2) + ((through outer rest).map signed).sum = _
      rw [first, later, List.map_cons, List.sum_cons, turn_add]

private theorem forall_through_dimension (outer : Operator) (dimension : Dimension) :
    (∀ term, term ∈ through outer terms → term.2.dimension = dimension) ↔
      ∀ term, term ∈ terms → term.2.dimension = dimension := by
  unfold through
  simp only [List.mem_map, forall_exists_index, and_imp, forall_apply_eq_imp_iff₂]

private theorem total?_open_sum {outer : Operator} (outerIsSum : outer.precedence = .sum)
    (isSum : ∀ term, term ∈ terms → term.1.precedence = .sum) (known first : Amount) :
    total? (some known) ((outer, first) :: through outer terms) =
      (total? (some first) terms).bind fun group => combine? outer known group := by
  apply Option.ext
  intro total
  have openIsSum : ∀ term, term ∈ (outer, first) :: through outer terms →
      term.1.precedence = .sum := by
    intro term member
    rcases List.mem_cons.mp member with same | later
    · rw [same]
      exact outerIsSum
    · exact through_single outerIsSum terms term later
  rw [total?_some_sum openIsSum, Option.bind_eq_some_iff]
  simp only [List.mem_cons, forall_eq_or_imp, forall_through_dimension, List.map_cons, List.sum_cons,
    sum_signed_through outerIsSum isSum]
  constructor
  · rintro ⟨sameKnown, ⟨sameFirst, sameRest⟩, number⟩
    refine ⟨⟨first.number + (terms.map signed).sum, total.dimension⟩, ?_, ?_⟩
    · exact (total?_some_sum isSum).mpr ⟨sameFirst, sameRest, rfl⟩
    · refine (combine?_sum_eq_some outerIsSum).mpr ⟨sameKnown, rfl, ?_⟩
      rw [number]
      exact congrArg (known.number + ·) (turn_add _ _ _).symm
  · rintro ⟨group, totalled, combined⟩
    obtain ⟨sameFirst, sameRest, groupNumber⟩ := (total?_some_sum isSum).mp totalled
    obtain ⟨sameKnown, sameGroup, number⟩ := (combine?_sum_eq_some outerIsSum).mp combined
    refine ⟨sameKnown, ⟨sameFirst.trans sameGroup, fun term member => ?_⟩, ?_⟩
    · exact (sameRest term member).trans sameGroup
    · have opened : signed (outer, group) = turn outer first.number + turn outer (terms.map signed).sum := by
        rw [← turn_add, ← groupNumber]
        rfl
      rw [number, opened]
      rfl

/-- A group of a sum may be opened: the operator in front of it moves to all of its terms. -/
theorem chain?_append_sum {operators others : List Operator} {outer : Operator}
    (outerIsSum : outer.precedence = .sum)
    (isSum : ∀ operator, operator ∈ others → operator.precedence = .sum)
    {amounts next : List Amount} (count : amounts.length = operators.length + 1)
    (nextCount : next.length = others.length + 1) :
    chain? (operators ++ outer :: others.map (outer.through ·)) (amounts ++ next) =
      (chain? operators amounts).bind fun known =>
        (chain? others next).bind fun group => combine? outer known group := by
  cases amounts with
  | nil => cases count
  | cons first rest =>
      cases next with
      | nil => cases nextCount
      | cons second later =>
          have sameLength : operators.length = rest.length := (Nat.succ.inj count).symm
          change total? (some first) ((operators ++ _).zip (rest ++ second :: later)) = _
          rw [zip_open sameLength, total?_append]
          congr 1
          funext known
          exact total?_open_sum outerIsSum (fun term member => isSum term.1 (List.of_mem_zip member).1)
            known second

/-- A sum is negated term by term. -/
theorem total?_neg_sum (isSum : ∀ term, term ∈ terms → term.1.precedence = .sum) (first : Amount) :
    total? (some (-first)) (through .subtract terms) = (total? (some first) terms).map (-·) := by
  apply Option.ext
  intro total
  rw [total?_some_sum (through_single rfl terms), Option.map_eq_some_iff, forall_through_dimension,
    sum_signed_through rfl isSum]
  constructor
  · rintro ⟨sameFirst, sameRest, number⟩
    refine ⟨-total, (total?_some_sum isSum).mpr ⟨sameFirst, sameRest, ?_⟩, neg_neg total⟩
    rw [number_neg, number, number_neg]
    change -(-first.number + -(terms.map signed).sum) = _
    ring
  · rintro ⟨positive, totalled, rfl⟩
    obtain ⟨sameFirst, sameRest, number⟩ := (total?_some_sum isSum).mp totalled
    refine ⟨sameFirst, sameRest, ?_⟩
    rw [number_neg, number, number_neg]
    exact neg_add _ _

/-! ### Products -/

def factor (term : Operator × Amount) : Fraction :=
  Fraction.share term.1 (Fraction.of term.2)

theorem combine?_product {operator : Operator} (isProduct : operator.precedence = .product)
    (known amount : Amount) :
    combine? operator known amount = (Fraction.of known * factor (operator, amount)).settle? := by
  cases operator with
  | multiply => rfl
  | divide =>
      change _ = (Fraction.of known * (Fraction.of amount)⁻¹).settle?
      by_cases zero : amount.number = 0
      · rw [Fraction.settle?_mul_inv_of known zero]
        exact if_pos zero
      · rw [Fraction.of_mul_inv_of known zero]
        exact if_neg zero
  | add => cases isProduct
  | subtract => cases isProduct
  | raise => cases isProduct

theorem total?_some_product (isProduct : ∀ term, term ∈ terms → term.1.precedence = .product)
    (known : Amount) :
    total? (some known) terms = (Fraction.of known * (terms.map factor).prod).settle? := by
  induction terms generalizing known with
  | nil =>
      rw [List.map_nil, List.prod_nil, mul_one]
      rfl
  | cons term rest ih =>
      have first := isProduct term List.mem_cons_self
      have later : ∀ other, other ∈ rest → other.1.precedence = .product :=
        fun other member => isProduct other (List.mem_cons_of_mem _ member)
      rw [total?_cons_some, combine?_product first, List.map_cons, List.prod_cons, ← mul_assoc]
      cases settled : (Fraction.of known * factor term).settle? with
      | none => rw [Option.bind_none, Fraction.settle?_mul_eq_none settled]
      | some next => rw [Option.bind_some, ih later, Fraction.settle?_eq_some.mp settled]

private theorem total?_none_product (isProduct : ∀ term, term ∈ terms → term.1.precedence = .product)
    (nonempty : terms ≠ []) : total? none terms = (terms.map factor).prod.settle? := by
  cases terms with
  | nil => exact absurd rfl nonempty
  | cons term rest =>
      have productNeutral : neutral term.1 term.2 = ⟨1, 0⟩ := by
        unfold neutral
        rw [isProduct term List.mem_cons_self]
      have start : total? none (term :: rest) = total? (some ⟨1, 0⟩) (term :: rest) := by
        rw [← productNeutral]
        rfl
      have one : Fraction.of ⟨1, 0⟩ = 1 := rfl
      rw [start, total?_some_product isProduct, one, one_mul]

/-- A product of which no division has been carried out. -/
def product? (operators : List Operator) : List Amount → Option Fraction
  | [] => none
  | first :: rest => some (Fraction.of first * ((operators.zip rest).map factor).prod)

theorem chain?_product {operators : List Operator}
    (isProduct : ∀ operator, operator ∈ operators → operator.precedence = .product)
    (amounts : List Amount) :
    chain? operators amounts = (product? operators amounts).bind Fraction.settle? := by
  cases amounts with
  | nil => rfl
  | cons first rest =>
      exact total?_some_product (fun term member => isProduct term.1 (List.of_mem_zip member).1) first

theorem product?_neg (operators : List Operator) (first : Amount) (rest : List Amount) :
    product? operators (-first :: rest) = (product? operators (first :: rest)).map (-·) :=
  congrArg some (Fraction.neg_mul (Fraction.of first) _)

private theorem share_one (operator : Operator) : Fraction.share operator 1 = 1 := by
  unfold Fraction.share
  split
  · apply Fraction.ext
    · change (Ratio.finite 1)⁻¹ = .finite 1
      rw [Ratio.inv_finite, if_neg one_ne_zero, inv_one]
    · exact neg_zero
  · rfl

private theorem share_inv (fraction : Fraction) (operator : Operator)
    (isProduct : operator.precedence = .product) :
    Fraction.share (Operator.divide.through operator) fraction = (Fraction.share operator fraction)⁻¹ := by
  cases operator with
  | multiply => rfl
  | divide => exact (Fraction.inv_inv fraction).symm
  | add => cases isProduct
  | subtract => cases isProduct
  | raise => cases isProduct

private theorem prod_factor_through {outer : Operator} (outerIsProduct : outer.precedence = .product)
    (isProduct : ∀ term, term ∈ terms → term.1.precedence = .product) :
    ((through outer terms).map factor).prod = Fraction.share outer (terms.map factor).prod := by
  induction terms with
  | nil => exact (share_one outer).symm
  | cons term rest ih =>
      have later := ih fun other member => isProduct other (List.mem_cons_of_mem _ member)
      have first := isProduct term List.mem_cons_self
      change factor (outer.through term.1, term.2) * ((through outer rest).map factor).prod = _
      rw [later, List.map_cons, List.prod_cons]
      cases outer with
      | multiply =>
          have same : Operator.multiply.through term.1 = term.1 := by
            cases operator : term.1 <;> rw [operator] at first <;> first | rfl | cases first
          rw [same]
          rfl
      | divide =>
          have turned : factor (Operator.divide.through term.1, term.2) = (factor term)⁻¹ :=
            share_inv (Fraction.of term.2) term.1 first
          rw [turned]
          exact (Fraction.mul_inv _ _).symm
      | add => cases outerIsProduct
      | subtract => cases outerIsProduct
      | raise => cases outerIsProduct

private theorem share_mul (operator : Operator) (left right : Fraction) :
    Fraction.share operator (left * right) =
      Fraction.share operator left * Fraction.share operator right := by
  unfold Fraction.share
  split
  · exact Fraction.mul_inv left right
  · rfl

/-- A group of a product may be opened: behind a division, its divisors are multiplied by. -/
theorem product?_append {operators others : List Operator} {outer : Operator}
    (outerIsProduct : outer.precedence = .product)
    (isProduct : ∀ operator, operator ∈ others → operator.precedence = .product)
    {amounts next : List Amount} (count : amounts.length = operators.length + 1)
    (nextCount : next.length = others.length + 1) :
    product? (operators ++ outer :: others.map (outer.through ·)) (amounts ++ next) =
      (product? operators amounts).bind fun known =>
        (product? others next).map fun group => known * Fraction.share outer group := by
  cases amounts with
  | nil => cases count
  | cons first rest =>
      cases next with
      | nil => cases nextCount
      | cons second later =>
          have sameLength : operators.length = rest.length := (Nat.succ.inj count).symm
          have termsAreProduct : ∀ term, term ∈ others.zip later → term.1.precedence = .product :=
            fun term member => isProduct term.1 (List.of_mem_zip member).1
          have opened := prod_factor_through outerIsProduct termsAreProduct
          rw [List.cons_append]
          change some (Fraction.of first * _) = some (Fraction.of first * _ *
            Fraction.share outer (Fraction.of second * _))
          rw [zip_open sameLength, List.map_append, List.prod_append, List.map_cons, List.prod_cons, opened,
            share_mul, mul_assoc]
          rfl

/-! ### The order of terms -/

/-- The terms of a sum or a product may be reordered. -/
theorem total?_perm {precedence : Precedence} (noPower : precedence ≠ .power)
    (single : ∀ term, term ∈ terms → term.1.precedence = precedence)
    {others : List (Operator × Amount)} (reordered : terms.Perm others) (known : Option Amount) :
    total? known terms = total? known others := by
  have singleToo : ∀ term, term ∈ others → term.1.precedence = precedence :=
    fun term member => single term (reordered.mem_iff.mpr member)
  have members : ∀ dimension : Dimension, (∀ term, term ∈ terms → term.2.dimension = dimension) ↔
      ∀ term, term ∈ others → term.2.dimension = dimension :=
    fun dimension => forall_congr' fun term => by rw [reordered.mem_iff]
  by_cases nonempty : terms = []
  · subst nonempty
    rw [List.nil_perm.mp reordered]
  · have nonemptyToo : others ≠ [] := fun empty => nonempty (List.perm_nil.mp (empty ▸ reordered))
    cases precedence with
    | sum =>
        have sums : (terms.map signed).sum = (others.map signed).sum := (reordered.map signed).sum_eq
        apply Option.ext
        intro total
        cases known with
        | none => rw [total?_none_sum single nonempty, total?_none_sum singleToo nonemptyToo, members, sums]
        | some known => rw [total?_some_sum single, total?_some_sum singleToo, members, sums]
    | product =>
        have products : (terms.map factor).prod = (others.map factor).prod :=
          (reordered.map factor).prod_eq
        cases known with
        | none =>
            rw [total?_none_product single nonempty, total?_none_product singleToo nonemptyToo, products]
        | some known => rw [total?_some_product single, total?_some_product singleToo, products]
    | power => exact absurd rfl noPower

/-! ### Towers -/

theorem tower?_append (operands : List Amount) (last : Amount) :
    tower? (operands ++ [last]) =
      operands.reverse.foldlM (fun exponent base => raise? base exponent) last := by
  induction operands with
  | nil => rfl
  | cons base rest ih =>
      have unfolded : tower? (base :: rest ++ [last]) = (tower? (rest ++ [last])).bind base.raise? := by
        cases rest <;> rfl
      rw [unfolded, ih, List.reverse_cons, List.foldlM_append]
      congr 1
      funext exponent
      exact (Option.bind_fun_some _).symm

end QuantityCalculator.Amount
