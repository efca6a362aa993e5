import QuantityCalculator.Proofs.Expression.WellFormed
import QuantityCalculator.Proofs.Number.Negation

/-!
Negating expressions twice.

A negation goes down the first operands of nested chains and turns the operators of the sums on its way around.  A
second one goes the same way and undoes all of it, provided that no sign stands in front of what could take it.
-/

namespace QuantityCalculator

theorem Quantity.neg_neg (quantity : Quantity) : - -quantity = quantity :=
  congrArg (fun magnitude => ({ quantity with magnitude } : Quantity)) (Number.neg_neg quantity.magnitude)

namespace Expression

/-- A tree with signs only in front of references and towers, wherever they stand.  Its chains are sums and products
of at least two operands, each with operators of its own precedence. -/
inductive TidyThroughout : Expression → Prop where
  | quantity (value : Quantity) : TidyThroughout (.quantity value)
  | var (name : String) : TidyThroughout (.var name)
  | output (index : Nat) : TidyThroughout (.output index)
  | chain {precedence : Precedence} {operands : List Expression} {operators : List Operator}
      (noPower : precedence ≠ .power) (several : 2 ≤ operands.length)
      (single : ∀ operator, operator ∈ operators → operator.precedence = precedence)
      (parts : ∀ operand, operand ∈ operands → TidyThroughout operand) :
      TidyThroughout (.chain precedence operands operators)
  | tower {operands : List Expression} (parts : ∀ operand, operand ∈ operands → TidyThroughout operand) :
      TidyThroughout (.tower operands)
  | negation {operand : Expression} (tidy : (Expression.negation operand).Tidy) (part : TidyThroughout operand) :
      TidyThroughout (.negation operand)

private theorem negateOperators_negateOperators {precedence : Precedence} {operators : List Operator}
    (single : ∀ operator, operator ∈ operators → operator.precedence = precedence) :
    negateOperators precedence (negateOperators precedence operators) = operators := by
  unfold negateOperators
  split
  · rename_i isSum
    have back : ∀ operator, operator ∈ operators →
        Operator.subtract.through (Operator.subtract.through operator) = operator :=
      fun operator member => Operator.subtract_through_through operator ((single operator member).trans isSum)
    rw [List.map_map]
    exact (List.map_congr_left back).trans (List.map_id' operators)
  · rfl

private theorem negate_tidyThroughout {expression : Expression} (tidy : expression.TidyThroughout) :
    expression.negate.TidyThroughout := by
  induction tidy with
  | quantity value => exact .quantity _
  | var name => exact .negation trivial (.var name)
  | output index => exact .negation trivial (.output index)
  | @chain precedence operands operators noPower several single parts ih =>
      cases operands with
      | nil => exact absurd several (by decide)
      | cons first rest =>
          refine .chain noPower several (negateOperators_single single) fun operand member => ?_
          rcases List.mem_cons.mp member with isFirst | later
          · exact isFirst ▸ ih first List.mem_cons_self
          · exact parts operand (List.mem_cons_of_mem _ later)
  | tower parts _ => exact .negation trivial (.tower parts)
  | negation _ part _ => exact part

private theorem negate_negate {expression : Expression} (tidy : expression.TidyThroughout) :
    expression.negate.negate = expression := by
  induction tidy with
  | quantity value => exact congrArg Expression.quantity value.neg_neg
  | @chain precedence operands operators noPower several single parts ih =>
      cases operands with
      | nil => exact absurd several (by decide)
      | cons first rest =>
          change chain precedence (first.negate.negate :: rest) (negateOperators _ (negateOperators _ _)) = _
          rw [ih first List.mem_cons_self, negateOperators_negateOperators single]
  | @negation operand isTidy _ _ =>
      -- the sign comes back, since the operand is none that takes it
      cases operand with
      | var name => rfl
      | output index => rfl
      | tower operands => rfl
      | _ => exact isTidy.elim
  | _ => rfl

/-- The negation of a tree that is tidy throughout is one again, and its negation is the tree. -/
theorem negate_involutive {expression : Expression} (tidy : expression.TidyThroughout) :
    expression.negate.TidyThroughout ∧ expression.negate.negate = expression :=
  ⟨negate_tidyThroughout tidy, negate_negate tidy⟩

/-- The difference `-a / 2.5 - -(x ^ [1])`. -/
def signedDifference : Expression :=
  .chain .sum
    [.chain .product [.negation (.var "a"), .quantity (.ofNumber (.real 2.5))] [.divide],
      .negation (.tower [.var "x", .output 1])]
    [.subtract]

private theorem signedDifference_tidyThroughout : signedDifference.TidyThroughout := by
  have power : TidyThroughout (.tower [.var "x", .output 1]) := by
    refine .tower fun operand member => ?_
    rcases List.mem_pair.mp member with rfl | rfl
    · exact .var "x"
    · exact .output 1
  have quotient : TidyThroughout
      (.chain .product [.negation (.var "a"), .quantity (.ofNumber (.real 2.5))] [.divide]) := by
    refine .chain (by decide) (by decide) (List.forall_mem_singleton.mpr rfl) fun operand member => ?_
    rcases List.mem_pair.mp member with rfl | rfl
    · exact .negation trivial (.var "a")
    · exact .quantity _
  refine .chain (by decide) (by decide) (List.forall_mem_singleton.mpr rfl) fun operand member => ?_
  rcases List.mem_pair.mp member with rfl | rfl
  · exact quotient
  · exact .negation trivial power

/-- The sign in front of the variable goes and the difference becomes a sum; then both come back. -/
theorem negate_involutive_signedDifference :
    signedDifference.TidyThroughout ∧
      signedDifference.negate =
        .chain .sum
          [.chain .product [.var "a", .quantity (.ofNumber (.real 2.5))] [.divide],
            .negation (.tower [.var "x", .output 1])]
          [.add] ∧
      signedDifference.negate.TidyThroughout ∧ signedDifference.negate.negate = signedDifference :=
  ⟨signedDifference_tidyThroughout, rfl, negate_involutive signedDifference_tidyThroughout⟩

end Expression

end QuantityCalculator
