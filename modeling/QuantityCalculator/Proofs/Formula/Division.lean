import QuantityCalculator.Proofs.Formula.Meaning

/-!
Divisions by zero in a formula.

Opening the groups of products loses a division by zero only inside of a divisor that is itself a product:
one over a ratio with a zero below is zero.
-/

namespace QuantityCalculator.Formula

variable (values : Valuation)

/-- Something is divided by zero if each group is computed on its own. -/
def DividesByZero : Formula → Prop
  | .minus operand => operand.DividesByZero
  | .group content => content.DividesByZero
  | .binary operator left right =>
    left.DividesByZero ∨ right.DividesByZero ∨
      (operator = .divide ∧ ∃ divisor, right.textbook? values = some divisor ∧ divisor.number = 0)
  | _ => False

def isProduct : Formula → Bool
  | .minus operand => operand.isProduct
  | .group content => content.isProduct
  | .binary operator _ _ => operator.precedence = .product
  | _ => false

/-- No divisor is a product. -/
def DividesPlainly : Formula → Prop
  | .minus operand => operand.DividesPlainly
  | .group content => content.DividesPlainly
  | .binary operator left right =>
    left.DividesPlainly ∧ right.DividesPlainly ∧ (operator = .divide → right.isProduct = false)
  | _ => True

variable {values}

/-- Sums and powers combine amounts. -/
theorem amounts_of_opened? {operator : Operator} {left right : Formula} {fraction : Fraction}
    (noProduct : operator.precedence ≠ .product)
    (opened : (Formula.binary operator left right).opened? values = some fraction) :
    ∃ known other amount, (left.opened? values).bind Fraction.settle? = some known ∧
      (right.opened? values).bind Fraction.settle? = some other ∧ fraction = Fraction.of amount := by
  have whole : (Formula.binary operator left right).opened? values =
      (left.opened? values).bind Fraction.settle? >>= fun known =>
        (right.opened? values).bind Fraction.settle? >>= fun amount =>
          (Amount.combine? operator known amount).map Fraction.of := by
    cases precedence : operator.precedence with
    | product => exact absurd precedence noProduct
    | sum => simp only [opened?, precedence]
    | power => simp only [opened?, precedence]
  rw [whole] at opened
  obtain ⟨known, leftSettles, next⟩ := Option.bind_eq_some_iff.mp opened
  obtain ⟨other, rightSettles, combined⟩ := Option.bind_eq_some_iff.mp next
  obtain ⟨amount, _, isOf⟩ := Option.map_eq_some_iff.mp combined
  exact ⟨known, other, amount, leftSettles, rightSettles, isOf.symm⟩

/-- What is not a product has an amount, if it makes anything. -/
theorem exists_amount_of_opened? {formula : Formula} {fraction : Fraction}
    (noProduct : formula.isProduct = false) (opened : formula.opened? values = some fraction) :
    ∃ amount, fraction = Fraction.of amount := by
  induction formula generalizing fraction with
  | quantity value =>
      obtain ⟨amount, _, isOf⟩ := Option.map_eq_some_iff.mp opened
      exact ⟨amount, isOf.symm⟩
  | var name =>
      obtain ⟨amount, _, isOf⟩ := Option.map_eq_some_iff.mp opened
      exact ⟨amount, isOf.symm⟩
  | output index =>
      obtain ⟨amount, _, isOf⟩ := Option.map_eq_some_iff.mp opened
      exact ⟨amount, isOf.symm⟩
  | minus operand ih =>
      obtain ⟨positive, found, rfl⟩ := Option.map_eq_some_iff.mp opened
      obtain ⟨amount, rfl⟩ := ih noProduct found
      exact ⟨-amount, rfl⟩
  | group content ih => exact ih noProduct opened
  | binary operator left right _ _ =>
      have noDecision : decide (operator.precedence = .product) = false := noProduct
      obtain ⟨_, _, amount, _, _, isOf⟩ := amounts_of_opened? (of_decide_eq_false noDecision) opened
      exact ⟨amount, isOf⟩

private theorem settle?_mul_share_zero {fraction : Fraction} {divisor : Amount} (zero : divisor.number = 0) :
    (fraction * Fraction.share .divide (Fraction.of divisor)).settle? = none := by
  cases settled : fraction.settle? with
  | none => exact Fraction.settle?_mul_eq_none settled _
  | some amount =>
      rw [Fraction.settle?_eq_some.mp settled]
      exact Fraction.settle?_mul_inv_of amount zero

/-- As long as no divisor is a product, what divides by zero as written does so with its groups opened. -/
theorem settle?_of_dividesByZero {formula : Formula} {fraction : Fraction}
    (plainly : formula.DividesPlainly) (divides : formula.DividesByZero values)
    (opened : formula.opened? values = some fraction) : fraction.settle? = none := by
  induction formula generalizing fraction with
  | minus operand ih =>
      obtain ⟨positive, found, rfl⟩ := Option.map_eq_some_iff.mp opened
      rw [Fraction.settle?_neg, ih plainly divides found]
      rfl
  | group content ih => exact ih plainly divides opened
  | binary operator left right ihLeft ihRight =>
      obtain ⟨plainLeft, plainRight, plainDivisor⟩ := plainly
      by_cases isProduct : operator.precedence = .product
      · simp only [opened?, isProduct] at opened
        obtain ⟨known, foundLeft, next⟩ := Option.bind_eq_some_iff.mp opened
        obtain ⟨other, foundRight, made⟩ := Option.bind_eq_some_iff.mp next
        rw [← Option.some.inj made]
        rcases divides with inLeft | inRight | ⟨rfl, divisor, computed, zero⟩
        · exact Fraction.settle?_mul_eq_none (ihLeft plainLeft inLeft foundLeft) _
        · have divided := ihRight plainRight inRight foundRight
          by_cases isDivision : operator = .divide
          · obtain ⟨amount, rfl⟩ := exists_amount_of_opened? (plainDivisor isDivision) foundRight
            cases divided
          · rw [Fraction.share, if_neg isDivision, mul_comm]
            exact Fraction.settle?_mul_eq_none divided known
        · rw [opened?_of_textbook? values computed] at foundRight
          cases foundRight
          exact settle?_mul_share_zero zero
      · obtain ⟨known, other, _, leftSettles, rightSettles, _⟩ := amounts_of_opened? isProduct opened
        obtain ⟨leftFraction, foundLeft, leftSettled⟩ := Option.bind_eq_some_iff.mp leftSettles
        obtain ⟨rightFraction, foundRight, rightSettled⟩ := Option.bind_eq_some_iff.mp rightSettles
        rcases divides with inLeft | inRight | ⟨rfl, _⟩
        · rw [ihLeft plainLeft inLeft foundLeft] at leftSettled
          cases leftSettled
        · rw [ihRight plainRight inRight foundRight] at rightSettled
          cases rightSettled
        · exact absurd rfl isProduct
  | _ => exact divides.elim

end QuantityCalculator.Formula
