import QuantityCalculator.Proofs.Expression.WellFormed

/-!
Joining flat operands.

Operands that are neither chains of the precedence nor negations are joined as they are: nothing is spliced, and no
sign is moved.
-/

namespace QuantityCalculator.Expression

theorem Links.extend_of_flat {precedence : Precedence} {expression : Expression}
    (flat : expression.isChainOf precedence = false) (noSign : expression.isNegation = false) (links : Links)
    (operator : Operator) : links.extend precedence operator expression =
      { operands := links.operands ++ [expression], operators := links.operators ++ [operator] } := by
  cases expression with
  | chain inner operands operators =>
      have different : inner ≠ precedence := of_decide_eq_false flat
      rw [Links.extend, if_neg different]
  | negation operand => cases noSign
  | _ => rfl

theorem join_of_flat {precedence : Precedence} {operator : Operator} {right : Expression}
    (isOf : operator.precedence = precedence) (flat : right.isChainOf precedence = false)
    (noSign : right.isNegation = false) (left : Expression) :
    left.join operator right =
      .chain precedence ((Links.start precedence left).operands ++ [right])
        ((Links.start precedence left).operators ++ [operator]) := by
  subst isOf
  rw [join, Links.extend_of_flat flat noSign]

/-- Operands that are neither chains of the precedence nor negations are joined as they are. -/
theorem joinSteps_of_flat {precedence : Precedence} {rest : List Expression} {operators : List Operator}
    (several : rest ≠ []) (count : rest.length = operators.length)
    (single : ∀ operator, operator ∈ operators → operator.precedence = precedence)
    (flat : ∀ operand, operand ∈ rest → operand.isChainOf precedence = false)
    (signs : ∀ operand, operand ∈ rest → operand.isNegation = false) (left : Expression) :
    joinSteps left (operators.zip rest) =
      .chain precedence ((Links.start precedence left).operands ++ rest)
        ((Links.start precedence left).operators ++ operators) := by
  induction rest generalizing left operators with
  | nil => exact absurd rfl several
  | cons second later ih =>
      cases operators with
      | nil => cases count
      | cons operator others =>
          have first := join_of_flat (single operator List.mem_cons_self) (flat second List.mem_cons_self)
            (signs second List.mem_cons_self) left
          change joinSteps (left.join operator second) (others.zip later) = _
          rw [first]
          -- what has been joined is a chain of the precedence, so the next operand is added at its end
          cases later with
          | nil =>
              rw [List.length_eq_zero_iff.mp (Nat.succ.inj count).symm]
              rfl
          | cons third more =>
              have onward := ih (List.cons_ne_nil _ _) (Nat.succ.inj count)
                (fun other member => single other (List.mem_cons_of_mem _ member))
                (fun other member => flat other (List.mem_cons_of_mem _ member))
                fun other member => signs other (List.mem_cons_of_mem _ member)
              rw [onward, Links.start, if_pos rfl, List.append_assoc, List.append_assoc]
              rfl

end QuantityCalculator.Expression
