import QuantityCalculator.Proofs.Expression.Flat

/-!
Where signs stand.

A sign in front of an operand that is joined to a sum turns the operator around, and in front of one that is
joined to a product it moves to the first factor.  Only a chain that is spliced in keeps the sign in front of its
first operand.
-/

namespace QuantityCalculator.Expression

/-- No operand of a chain but the first one is a negation, wherever the chain stands. -/
inductive SignsLead : Expression → Prop where
  | quantity (value : Quantity) : SignsLead (.quantity value)
  | var (name : String) : SignsLead (.var name)
  | output (index : Nat) : SignsLead (.output index)
  | chain {precedence : Precedence} {first : Expression} {rest : List Expression} {operators : List Operator}
      (unsigned : ∀ operand, operand ∈ rest → operand.isNegation = false)
      (parts : ∀ operand, operand ∈ first :: rest → SignsLead operand) :
      SignsLead (.chain precedence (first :: rest) operators)
  | tower {operands : List Expression} (parts : ∀ operand, operand ∈ operands → SignsLead operand) :
      SignsLead (.tower operands)
  | negation {operand : Expression} (part : SignsLead operand) : SignsLead (.negation operand)

def startsSigned (precedence : Precedence) : Expression → Bool
  | .chain inner (first :: _) _ => inner = precedence && first.isNegation
  | _ => false

theorem signsLead_chain_iff {precedence : Precedence} {first : Expression} {rest : List Expression}
    {operators : List Operator} :
    (Expression.chain precedence (first :: rest) operators).SignsLead ↔
      first.SignsLead ∧ ∀ operand, operand ∈ rest → operand.isNegation = false ∧ operand.SignsLead := by
  constructor
  · intro lead
    cases lead with
    | chain unsigned parts =>
        exact ⟨parts first List.mem_cons_self, fun operand member =>
          ⟨unsigned operand member, parts operand (List.mem_cons_of_mem _ member)⟩⟩
  · intro ⟨firstLeads, others⟩
    exact .chain (fun operand member => (others operand member).1)
      (List.forall_mem_cons.mpr ⟨firstLeads, fun operand member => (others operand member).2⟩)

theorem signsLead_negation_iff {operand : Expression} :
    (Expression.negation operand).SignsLead ↔ operand.SignsLead := by
  constructor
  · intro lead
    cases lead with
    | negation part => exact part
  · exact .negation

theorem signsLead_tower_iff {operands : List Expression} :
    (Expression.tower operands).SignsLead ↔ ∀ operand, operand ∈ operands → operand.SignsLead := by
  constructor
  · intro lead
    cases lead with
    | tower parts => exact parts
  · exact .tower

private theorem exists_first_of_isChainOf {precedence : Precedence} {expression : Expression}
    (regular : expression.Regular) (isChain : expression.isChainOf precedence = true) :
    ∃ first rest operators, expression = .chain precedence (first :: rest) operators := by
  cases regular with
  | @chain inner operands operators _ _ count _ _ =>
      have same : inner = precedence := of_decide_eq_true isChain
      cases operands with
      | nil => cases count
      | cons first rest => exact ⟨first, rest, operators, by rw [same]⟩
  | _ => cases isChain

theorem isChainOf_power {expression : Expression} (regular : expression.Regular) :
    expression.isChainOf .power = false := by
  cases regular with
  | chain noPower _ _ _ _ => exact decide_eq_false noPower
  | _ => rfl

/-! ### Negation -/

theorem signsLead_negate_iff {expression : Expression} (regular : expression.Regular) :
    expression.negate.SignsLead ↔ expression.SignsLead := by
  induction regular with
  | quantity value _ => exact iff_of_true (.quantity _) (.quantity value)
  | @chain precedence operands operators _ _ count _ _ ih =>
      cases operands with
      | nil => cases count
      | cons first rest =>
          rw [negate, signsLead_chain_iff, signsLead_chain_iff, ih first List.mem_cons_self]
  | negation _ _ _ => exact signsLead_negation_iff.symm
  | _ => exact signsLead_negation_iff

/-! ### Joining -/

/-- The sign of what is joined to a sum turns the operator around. -/
theorem join_negation_sum {operator : Operator} (isSum : operator.precedence = .sum) (left operand : Expression) :
    left.join operator (.negation operand) = left.join operator.opposite operand := by
  unfold join
  rw [Operator.precedence_opposite, isSum, Links.extend, if_pos rfl]

/-- A chain of products that starts with a negated expression has the sign in front of its first factor. -/
theorem start_negate {precedence : Precedence} (noSum : precedence ≠ .sum) {expression : Expression}
    (regular : expression.Regular) :
    Links.start precedence expression.negate =
      { operands := negateFirst (Links.start precedence expression).operands
        operators := (Links.start precedence expression).operators } := by
  have tidy := regular.tidy trivial
  cases isChain : expression.isChainOf precedence with
  | false =>
      rw [Links.start_of_flat isChain, Links.start_of_flat ((isChainOf_negate tidy precedence).trans isChain)]
      rfl
  | true =>
      obtain ⟨first, rest, operators, rfl⟩ := exists_first_of_isChainOf regular isChain
      rw [negate, negateOperators, if_neg noSum, Links.start, Links.start, if_pos rfl, if_pos rfl, negateFirst]

/-- The sign of what is joined to a product moves to the first factor. -/
theorem join_negation_product {operator : Operator} (isProduct : operator.precedence = .product)
    {left operand : Expression} (leftRegular : left.Regular) (tidy : (Expression.negation operand).Tidy) :
    left.join operator (.negation operand) = left.negate.join operator operand := by
  have noSum : operator.precedence ≠ .sum := by
    rw [isProduct]
    decide
  rw [join_of_flat rfl (isChainOf_of_tidy tidy _) (isNegation_of_tidy tidy), start_negate noSum leftRegular]
  unfold join
  rw [Links.extend, if_neg noSum]

/-- What is joined as it is joins the operands of the chain. -/
theorem signsLead_append_iff {precedence : Precedence} {left : Expression} (leftRegular : left.Regular)
    {others : List Expression} {operators : List Operator} :
    (Expression.chain precedence ((Links.start precedence left).operands ++ others) operators).SignsLead ↔
      left.SignsLead ∧ ∀ operand, operand ∈ others → operand.isNegation = false ∧ operand.SignsLead := by
  cases isChain : left.isChainOf precedence with
  | false =>
      rw [Links.start_of_flat isChain]
      exact signsLead_chain_iff
  | true =>
      obtain ⟨first, rest, operators, rfl⟩ := exists_first_of_isChainOf leftRegular isChain
      rw [Links.start, if_pos rfl, List.cons_append, signsLead_chain_iff, signsLead_chain_iff,
        List.forall_mem_append, and_assoc]

theorem signsLead_join_single_iff {operator : Operator} {left right : Expression} (leftRegular : left.Regular)
    (flat : right.isChainOf operator.precedence = false) (noSign : right.isNegation = false) :
    (left.join operator right).SignsLead ↔ left.SignsLead ∧ right.SignsLead := by
  rw [join_of_flat rfl flat noSign, signsLead_append_iff leftRegular, List.forall_mem_singleton]
  exact and_congr_right fun _ => and_iff_right noSign

theorem startsSigned_of_flat {precedence : Precedence} {expression : Expression}
    (flat : expression.isChainOf precedence = false) : expression.startsSigned precedence = false := by
  cases expression with
  | chain inner operands operators =>
      cases operands with
      | nil => rfl
      | cons first rest => exact Bool.and_eq_false_iff.mpr (Or.inl flat)
  | _ => rfl

/-- A sign stands behind the first operand of a chain only if it has been spliced in with the chain that it
started. -/
theorem signsLead_join_iff {operator : Operator} (noPower : operator.precedence ≠ .power)
    {left right : Expression} (leftRegular : left.Regular) (rightRegular : right.Regular) :
    (left.join operator right).SignsLead ↔
      left.SignsLead ∧ right.SignsLead ∧ right.startsSigned operator.precedence = false := by
  cases isChain : right.isChainOf operator.precedence with
  | true =>
      obtain ⟨first, rest, operators, rfl⟩ := exists_first_of_isChainOf rightRegular isChain
      have joined : left.join operator (.chain operator.precedence (first :: rest) operators) =
          .chain operator.precedence ((Links.start operator.precedence left).operands ++ first :: rest)
            ((Links.start operator.precedence left).operators ++
              operator :: operators.map (operator.through ·)) := by
        rw [join, Links.extend, if_pos rfl]
      have starts : (Expression.chain operator.precedence (first :: rest) operators).startsSigned
          operator.precedence = first.isNegation := by
        simp only [startsSigned, decide_true, Bool.true_and]
      rw [joined, signsLead_append_iff leftRegular, signsLead_chain_iff, starts, List.forall_mem_cons]
      refine and_congr_right fun _ => ?_
      rw [and_assoc, and_comm]
  | false =>
      have unsigned := startsSigned_of_flat isChain
      cases sign : right.isNegation with
      | false =>
          rw [signsLead_join_single_iff leftRegular isChain sign, unsigned]
          simp only [and_true]
      | true =>
          cases rightRegular with
          | @negation operand tidy _ =>
              have operandFlat := isChainOf_of_tidy (tidy trivial)
              have operandUnsigned := isNegation_of_tidy (tidy trivial)
              rw [signsLead_negation_iff, unsigned]
              simp only [and_true]
              cases precedence : operator.precedence with
              | sum =>
                  rw [join_negation_sum precedence]
                  exact signsLead_join_single_iff leftRegular (operandFlat _) operandUnsigned
              | product =>
                  rw [join_negation_product precedence leftRegular (tidy trivial),
                    signsLead_join_single_iff (negate_formed leftRegular) (operandFlat _) operandUnsigned,
                    signsLead_negate_iff leftRegular]
              | power => exact absurd precedence noPower
          | _ => cases sign

end QuantityCalculator.Expression
