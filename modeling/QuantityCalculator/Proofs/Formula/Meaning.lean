import QuantityCalculator.Proofs.Formula.Basic
import QuantityCalculator.Proofs.Expression.Meaning

/-!
The amount of a formula, as written and in normal form.

As written, every group is computed on its own.  In normal form, a group of a product is opened, so its
divisions are carried out only together with those of the product around it.
-/

namespace QuantityCalculator.Formula

def textbook? (values : Valuation) : Formula → Option Amount
  | .quantity value => Amount.ofQuantity? value
  | .var name => values.var name
  | .output index => values.output index
  | .minus operand => (operand.textbook? values).map (-·)
  | .group content => content.textbook? values
  | .binary operator left right => do
    Amount.combine? operator (← left.textbook? values) (← right.textbook? values)

/-- What a formula makes if the groups of its products are opened.  A product is a fraction until a sum, a
power or the end of the line needs its amount. -/
def opened? (values : Valuation) : Formula → Option Fraction
  | .quantity value => (Amount.ofQuantity? value).map Fraction.of
  | .var name => (values.var name).map Fraction.of
  | .output index => (values.output index).map Fraction.of
  | .minus operand => (operand.opened? values).map (-·)
  | .group content => content.opened? values
  | .binary operator left right =>
    match operator.precedence with
    | .product => do
      return (← left.opened? values) * Fraction.share operator (← right.opened? values)
    | _ => do
      let known ← (left.opened? values).bind Fraction.settle?
      let amount ← (right.opened? values).bind Fraction.settle?
      (Amount.combine? operator known amount).map Fraction.of

/-! ### Normal forms -/

theorem towerOperands_eq {formula : Formula} (noRaise : ∀ base exponent, formula ≠ .binary .raise base exponent) :
    formula.towerOperands = [formula.normalize] := by
  cases formula with
  | binary operator left right =>
      cases operator with
      | raise => exact absurd rfl (noRaise left right)
      | _ => simp only [towerOperands, normalize]
  | _ => simp only [towerOperands, normalize]

theorem towerOperands_ne_nil (formula : Formula) : formula.towerOperands ≠ [] := by
  cases formula with
  | binary operator left right => cases operator <;> simp [towerOperands]
  | _ => simp [towerOperands]

theorem normalize_binary {operator : Operator} (noPower : operator.precedence ≠ .power)
    (left right : Formula) :
    (Formula.binary operator left right).normalize = left.normalize.join operator right.normalize := by
  cases operator with
  | raise => exact absurd rfl noPower
  | _ => simp only [normalize]

theorem normalize_raise (base exponent : Formula) :
    (Formula.binary .raise base exponent).normalize =
      .tower (base.normalize :: exponent.towerOperands) := by
  simp only [normalize]

def References (holds : Expression → Prop) : Formula → Prop
  | .quantity _ => True
  | .var name => holds (.var name)
  | .output index => holds (.output index)
  | .minus operand => operand.References holds
  | .group content => content.References holds
  | .binary _ left right => left.References holds ∧ right.References holds

theorem References.imp {holds other : Expression → Prop} (onVar : ∀ name, holds (.var name) → other (.var name))
    (onOutput : ∀ index, holds (.output index) → other (.output index)) {formula : Formula}
    (references : formula.References holds) : formula.References other := by
  induction formula with
  | quantity value => trivial
  | var name => exact onVar name references
  | output index => exact onOutput index references
  | minus operand ih => exact ih references
  | group content ih => exact ih references
  | binary operator left right ihLeft ihRight => exact ⟨ihLeft references.1, ihRight references.2⟩

/-- What holds of quantities, and is kept by all that normal forms are made of. -/
structure Composes (holds : Expression → Prop) : Prop where
  quantity : ∀ value, holds (.quantity value)
  negate : ∀ {expression}, holds expression → holds expression.negate
  join : ∀ {operator : Operator} {left right : Expression}, operator.precedence ≠ .power → holds left →
    holds right → holds (left.join operator right)
  tower : ∀ operands, 2 ≤ operands.length → (∀ operand, operand ∈ operands → holds operand) →
    holds (.tower operands)

private theorem Composes.both {holds : Expression → Prop} (composes : Composes holds) {formula : Formula}
    (references : formula.References holds) :
    holds formula.normalize ∧ ∀ operand, operand ∈ formula.towerOperands → holds operand := by
  have alone : ∀ formula : Formula, (∀ base exponent, formula ≠ .binary .raise base exponent) →
      holds formula.normalize →
        holds formula.normalize ∧ ∀ operand, operand ∈ formula.towerOperands → holds operand := by
    intro formula noRaise normal
    refine ⟨normal, fun operand member => ?_⟩
    rw [towerOperands_eq noRaise] at member
    exact List.mem_singleton.mp member ▸ normal
  induction formula with
  | quantity value =>
      refine alone _ (fun _ _ same => by cases same) ?_
      simp only [normalize]
      exact composes.quantity value
  | var name =>
      refine alone _ (fun _ _ same => by cases same) ?_
      simp only [normalize]
      exact references
  | output index =>
      refine alone _ (fun _ _ same => by cases same) ?_
      simp only [normalize]
      exact references
  | minus operand ih =>
      refine alone _ (fun _ _ same => by cases same) ?_
      simp only [normalize]
      exact composes.negate (ih references).1
  | group content ih =>
      refine alone _ (fun _ _ same => by cases same) ?_
      simp only [normalize]
      exact (ih references).1
  | binary operator left right ihLeft ihRight =>
      obtain ⟨leftHolds, _⟩ := ihLeft references.1
      obtain ⟨rightHolds, rightTower⟩ := ihRight references.2
      by_cases isPower : operator.precedence = .power
      · cases operator with
        | raise =>
            have parts : ∀ operand, operand ∈ left.normalize :: right.towerOperands → holds operand :=
              List.forall_mem_cons.mpr ⟨leftHolds, rightTower⟩
            have several : 2 ≤ (left.normalize :: right.towerOperands).length :=
              Nat.succ_le_succ (List.length_pos_iff.mpr (towerOperands_ne_nil right))
            rw [normalize_raise]
            refine ⟨composes.tower _ several parts, ?_⟩
            simp only [towerOperands]
            exact parts
        | _ => cases isPower
      · apply alone
        · rintro base exponent same
          cases same
          exact isPower rfl
        · rw [normalize_binary isPower]
          exact composes.join isPower leftHolds rightHolds

theorem Composes.normalize {holds : Expression → Prop} (composes : Composes holds) {formula : Formula}
    (references : formula.References holds) : holds formula.normalize :=
  (composes.both references).1

/-- The normal form is of any form that asks nothing of quantities, and of towers only what holds of towers of
operands of the form. -/
theorem normalize_formed {form : Expression.Form} (quantities : ∀ value, form.quantity value) {formula : Formula}
    (references : formula.References form.atom)
    (towers : ∀ operands : List Expression, 2 ≤ operands.length →
      (∀ operand, operand ∈ operands → operand.Formed form) → form.atom (.tower operands)) :
    formula.normalize.Formed form := by
  have composes : Composes (Expression.Formed form) :=
    ⟨fun value => .quantity value (quantities value), Expression.negate_formed, Expression.join_formed,
      fun operands several parts => .tower (towers operands several parts) fun _ => parts⟩
  exact composes.normalize (references.imp .var .output)

theorem references_trivial (formula : Formula) : formula.References fun _ => True := by
  induction formula with
  | minus operand ih => exact ih
  | group content ih => exact ih
  | binary operator left right ihLeft ihRight => exact ⟨ihLeft, ihRight⟩
  | _ => trivial

theorem normalize_wellFormed (formula : Formula) : formula.normalize.WellFormed :=
  normalize_formed (fun _ => trivial) (references_trivial formula) fun _ _ _ => trivial

theorem normalize_tidy (formula : Formula) : formula.normalize.Tidy := by
  induction formula with
  | minus operand ih =>
      simp only [normalize]
      exact Expression.negate_tidy ih
  | group content ih => simpa only [normalize] using ih
  | binary operator left right _ _ => cases operator <;> simp only [normalize] <;> trivial
  | quantity value => simp only [normalize]; trivial
  | var name => simp only [normalize]; trivial
  | output index => simp only [normalize]; trivial

/-! ### Meanings of normal forms -/

variable (values : Valuation)

private theorem amounts?_towerOperands (formula : Formula) :
    (Expression.amounts? values formula.towerOperands).bind Amount.tower? =
      formula.normalize.amount? values := by
  have alone : ∀ formula : Formula, (∀ base exponent, formula ≠ .binary .raise base exponent) →
      (Expression.amounts? values formula.towerOperands).bind Amount.tower? =
        formula.normalize.amount? values := by
    intro formula noRaise
    rw [towerOperands_eq noRaise]
    simp only [Expression.amounts?]
    cases formula.normalize.amount? values <;> rfl
  cases formula with
  | binary operator left right =>
      cases operator with
      | raise => simp only [towerOperands, normalize, Expression.amount?]
      | _ => exact alone _ fun _ _ same => by cases same
  | _ => exact alone _ fun _ _ same => by cases same

private theorem amount?_normalize_raise (base exponent : Formula) :
    (Formula.binary .raise base exponent).normalize.amount? values =
      (base.normalize.amount? values).bind fun first =>
        (exponent.normalize.amount? values).bind fun power => first.raise? power := by
  rw [normalize_raise, ← amounts?_towerOperands values exponent]
  exact Expression.amount?_tower_cons base.normalize (towerOperands_ne_nil exponent)

private theorem map_of_bind_bind (first second : Option Amount)
    (combine : Amount → Amount → Option Amount) :
    (first.bind fun known => second.bind fun amount => combine known amount).map Fraction.of =
      first.bind fun known => second.bind fun amount => (combine known amount).map Fraction.of := by
  cases first with
  | none => rfl
  | some known => cases second <;> rfl

/-- A normal form means what its formula does once the groups of its products are opened. -/
theorem fraction?_normalize (formula : Formula) :
    formula.normalize.fraction? values = formula.opened? values := by
  induction formula with
  | quantity value => simp only [normalize]; rfl
  | var name => simp only [normalize]; rfl
  | output index => simp only [normalize]; rfl
  | minus operand ih =>
      simp only [normalize, opened?]
      rw [Expression.fraction?_negate (normalize_wellFormed operand) (normalize_tidy operand), ih]
  | group content ih =>
      simp only [normalize, opened?]
      exact ih
  | binary operator left right ihLeft ihRight =>
      have leftAmount : left.normalize.amount? values = (left.opened? values).bind Fraction.settle? := by
        rw [Expression.amount?_eq_settle (normalize_wellFormed left), ihLeft]
      have rightAmount : right.normalize.amount? values = (right.opened? values).bind Fraction.settle? := by
        rw [Expression.amount?_eq_settle (normalize_wellFormed right), ihRight]
      cases precedence : operator.precedence with
      | product =>
          have noPower : operator.precedence ≠ .power := by rw [precedence]; decide
          rw [normalize_binary noPower, Expression.fraction?_join values precedence
            (normalize_wellFormed left) (normalize_wellFormed right), ihLeft, ihRight]
          simp only [opened?, precedence]
          cases left.opened? values <;> cases right.opened? values <;> rfl
      | sum =>
          have noPower : operator.precedence ≠ .power := by rw [precedence]; decide
          have whole : (left.normalize.join operator right.normalize).fraction? values =
              ((left.normalize.join operator right.normalize).amount? values).map Fraction.of := by
            unfold Expression.join
            rw [precedence]
            rfl
          rw [normalize_binary noPower, whole, Expression.amount?_join_sum values precedence
            (normalize_wellFormed left) (normalize_wellFormed right), leftAmount, rightAmount]
          simp only [opened?, precedence]
          exact map_of_bind_bind _ _ _
      | power =>
          cases operator with
          | raise =>
              have whole : (Formula.binary .raise left right).normalize.fraction? values =
                  ((Formula.binary .raise left right).normalize.amount? values).map Fraction.of := by
                rw [normalize_raise]
                rfl
              rw [whole, amount?_normalize_raise, leftAmount, rightAmount]
              simp only [opened?, precedence]
              exact map_of_bind_bind _ _ _
          | _ => cases precedence

theorem amount?_normalize (formula : Formula) :
    formula.normalize.amount? values = (formula.opened? values).bind Fraction.settle? := by
  rw [Expression.amount?_eq_settle (normalize_wellFormed formula), fraction?_normalize]

/-- Opening the groups of products does not change what a formula makes as written. -/
theorem opened?_of_textbook? {formula : Formula} {amount : Amount}
    (textbook : formula.textbook? values = some amount) :
    formula.opened? values = some (Fraction.of amount) := by
  induction formula generalizing amount with
  | quantity value =>
      simp only [textbook?] at textbook
      simp only [opened?, textbook, Option.map_some]
  | var name =>
      simp only [textbook?] at textbook
      simp only [opened?, textbook, Option.map_some]
  | output index =>
      simp only [textbook?] at textbook
      simp only [opened?, textbook, Option.map_some]
  | minus operand ih =>
      obtain ⟨positive, found, rfl⟩ := Option.map_eq_some_iff.mp textbook
      simp only [opened?, ih found, Option.map_some]
      rfl
  | group content ih => exact ih textbook
  | binary operator left right ihLeft ihRight =>
      obtain ⟨known, foundLeft, next⟩ := Option.bind_eq_some_iff.mp textbook
      obtain ⟨other, foundRight, combined⟩ := Option.bind_eq_some_iff.mp next
      simp only [opened?, ihLeft foundLeft, ihRight foundRight]
      cases precedence : operator.precedence with
      | product =>
          have product := Amount.combine?_product precedence known other
          rw [combined] at product
          exact congrArg some (Fraction.settle?_eq_some.mp product.symm)
      | sum =>
          change (Amount.combine? operator known other).map Fraction.of = _
          rw [combined]
          rfl
      | power =>
          change (Amount.combine? operator known other).map Fraction.of = _
          rw [combined]
          rfl

end QuantityCalculator.Formula
