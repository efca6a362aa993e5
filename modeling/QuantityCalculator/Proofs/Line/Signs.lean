import QuantityCalculator.Proofs.Expression.Signs
import QuantityCalculator.Proofs.Formula.Regular
import QuantityCalculator.Proofs.Line.Acceptance

/-!
Signs in the tree of a line.

A sign leads the chain that it stands in, unless a group that starts with it is spliced into a sum or a product
in front of it.
-/

namespace QuantityCalculator

namespace Formula

open Expression (Regular)

/-- No group that starts with a sign is joined to an operator of its own precedence. -/
def SplicesUnsigned : Formula → Prop
  | .minus operand => operand.SplicesUnsigned
  | .group content => content.SplicesUnsigned
  | .binary operator left right =>
    left.SplicesUnsigned ∧ right.SplicesUnsigned ∧ right.normalize.startsSigned operator.precedence = false
  | _ => True

def MovesSigns : Formula → Prop
  | .minus operand => operand.MovesSigns
  | .group content => content.MovesSigns
  | .binary operator left right =>
    left.MovesSigns ∧ right.MovesSigns ∧ ∀ operand, right.normalize = .negation operand →
      (operator.precedence = .sum →
        (Formula.binary operator left right).normalize = left.normalize.join operator.opposite operand) ∧
      (operator.precedence = .product →
        (Formula.binary operator left right).normalize = left.normalize.negate.join operator operand)
  | _ => True

private theorem movesSigns (formula : Formula) : formula.MovesSigns := by
  induction formula with
  | minus operand ih => exact ih
  | group content ih => exact ih
  | binary operator left right ihLeft ihRight =>
      refine ⟨ihLeft, ihRight, fun operand isNegation => ⟨fun isSum => ?_, fun isProduct => ?_⟩⟩
      · have noPower : operator.precedence ≠ .power := by
          rw [isSum]
          decide
        rw [normalize_binary noPower, isNegation, Expression.join_negation_sum isSum]
      · have noPower : operator.precedence ≠ .power := by
          rw [isProduct]
          decide
        have tidy : (Expression.negation operand).Tidy := isNegation ▸ normalize_tidy right
        rw [normalize_binary noPower, isNegation,
          Expression.join_negation_product isProduct (normalize_regular left) tidy]
  | _ => trivial

theorem signsLead_towerOperands_iff (formula : Formula) :
    (∀ operand, operand ∈ formula.towerOperands → operand.SignsLead) ↔ formula.normalize.SignsLead := by
  have alone : (∀ base exponent, formula ≠ .binary .raise base exponent) →
      ((∀ operand, operand ∈ formula.towerOperands → operand.SignsLead) ↔ formula.normalize.SignsLead) := by
    intro noRaise
    rw [towerOperands_eq noRaise, List.forall_mem_singleton]
  cases formula with
  | binary operator left right =>
      cases operator with
      | raise => rw [normalize_raise, Expression.signsLead_tower_iff, towerOperands]
      | _ => exact alone fun _ _ same => by cases same
  | _ => exact alone fun _ _ same => by cases same

/-- Signs lead the chains of the normal form exactly if every chain that is spliced in starts without one. -/
theorem signsLead_normalize_iff (formula : Formula) :
    formula.normalize.SignsLead ↔ formula.SplicesUnsigned := by
  induction formula with
  | quantity value => exact iff_of_true (by rw [normalize]; exact .quantity value) trivial
  | var name => exact iff_of_true (by rw [normalize]; exact .var name) trivial
  | output index => exact iff_of_true (by rw [normalize]; exact .output index) trivial
  | minus operand ih =>
      rw [normalize, Expression.signsLead_negate_iff (normalize_regular operand)]
      exact ih
  | group content ih =>
      rw [normalize]
      exact ih
  | binary operator left right ihLeft ihRight =>
      by_cases isPower : operator.precedence = .power
      · cases operator with
        | raise =>
            have unsigned := Expression.startsSigned_of_flat
              (Expression.isChainOf_power (normalize_regular right))
            rw [normalize_raise, Expression.signsLead_tower_iff, List.forall_mem_cons,
              signsLead_towerOperands_iff, ihLeft, ihRight, SplicesUnsigned]
            exact and_congr_right fun _ => (and_iff_left unsigned).symm
        | _ => cases isPower
      · rw [normalize_binary isPower, Expression.signsLead_join_iff isPower (normalize_regular left)
          (normalize_regular right), ihLeft, ihRight, SplicesUnsigned]

end Formula

namespace Line

/-- In the tree of a line a sign leads its chain, unless a group that starts with it has been spliced in. -/
theorem signs_of_read {workspace : Workspace} {text : String} {line : Line}
    (accepted : read workspace text = .ok line) :
    ∃ tokens formula, Token.scan workspace.outputs.length text = .ok tokens ∧
      Derives workspace tokens line.targets formula line.displayUnit ∧
        (line.expression.SignsLead ↔ formula.SplicesUnsigned) ∧ formula.MovesSigns := by
  obtain ⟨tokens, scanned, read⟩ := exists_scan accepted
  obtain ⟨formula, written, normal⟩ := exists_derives read
  refine ⟨tokens, formula, scanned, written, ?_, formula.movesSigns⟩
  rw [normal]
  exact formula.signsLead_normalize_iff

/-- The tree of `a * (x - -y) / -z`, with the signs moved. -/
def signedProduct : Expression :=
  .chain .product
    [.negation (.var "a"), .chain .sum [.var "x", .var "y"] [.add], .var "z"] [.multiply, .divide]

theorem signs_of_read_signedProduct :
    ∃ tokens formula, Token.scan 0 "a * (x - -y) / -z" = .ok tokens ∧
      Derives .empty tokens [] formula none ∧
        (signedProduct.SignsLead ↔ formula.SplicesUnsigned) ∧ formula.MovesSigns := by
  have accepted : read .empty "a * (x - -y) / -z" =
      .ok { targets := [], expression := signedProduct, displayUnit := none } := rfl
  exact signs_of_read accepted

/-- A group that starts with a sign keeps it inside the sum or product that it is spliced into. -/
theorem splicedSign_trails :
    (∃ line, read .empty "x + (-y + z)" = .ok line ∧
        line.expression = .chain .sum [.var "x", .negation (.var "y"), .var "z"] [.add, .add] ∧
          ¬line.expression.SignsLead) ∧
      ∃ line, read .empty "a * (-b / c)" = .ok line ∧
        line.expression = .chain .product [.var "a", .negation (.var "b"), .var "c"] [.multiply, .divide] ∧
          ¬line.expression.SignsLead := by
  have inChain : ∀ {precedence : Precedence} {first operand last : Expression} {operators : List Operator},
      ¬(Expression.chain precedence [first, .negation operand, last] operators).SignsLead := by
    intro precedence first operand last operators lead
    cases ((Expression.signsLead_chain_iff.mp lead).2 _ List.mem_cons_self).1
  exact ⟨⟨_, rfl, rfl, inChain⟩, ⟨_, rfl, rfl, inChain⟩⟩

end Line

end QuantityCalculator
