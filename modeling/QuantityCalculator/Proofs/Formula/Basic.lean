import QuantityCalculator.Expression.Basic

/-!
Formulas as written.

A formula keeps the grouping of the input: which operator was applied to what, and where parentheses
stood.  Its normal form is an expression.
-/

namespace QuantityCalculator

inductive Formula where
  | quantity (value : Quantity)
  | var (name : String)
  | output (index : Nat)
  /-- A formula behind a minus sign. -/
  | minus (operand : Formula)
  /-- A formula in parentheses. -/
  | group (content : Formula)
  | binary (operator : Operator) (left right : Formula)

namespace Formula

mutual

def normalize : Formula → Expression
  | .quantity value => .quantity value
  | .var name => .var name
  | .output index => .output index
  | .minus operand => operand.normalize.negate
  | .group content => content.normalize
  | .binary .raise base exponent => .tower (base.normalize :: exponent.towerOperands)
  | .binary .add left right => left.normalize.join .add right.normalize
  | .binary .subtract left right => left.normalize.join .subtract right.normalize
  | .binary .multiply left right => left.normalize.join .multiply right.normalize
  | .binary .divide left right => left.normalize.join .divide right.normalize

/-- The operands that an exponent adds to a tower: those of a power without parentheses, or itself. -/
def towerOperands : Formula → List Expression
  | .binary .raise base exponent => base.normalize :: exponent.towerOperands
  | .quantity value => [.quantity value]
  | .var name => [.var name]
  | .output index => [.output index]
  | .minus operand => [operand.normalize.negate]
  | .group content => [content.normalize]
  | .binary .add left right => [left.normalize.join .add right.normalize]
  | .binary .subtract left right => [left.normalize.join .subtract right.normalize]
  | .binary .multiply left right => [left.normalize.join .multiply right.normalize]
  | .binary .divide left right => [left.normalize.join .divide right.normalize]

end

/-! ### Grouping by precedence -/

abbrev Tail := List (Operator × Formula)

/-- Joins the operands of each run of powers, from the right. -/
def groupPowers (first : Formula) : Tail → Formula × Tail
  | [] => (first, [])
  | (operator, next) :: rest =>
    let (power, tail) := groupPowers next rest
    if operator = .raise then (.binary .raise first power, tail)
    else (first, (operator, power) :: tail)

/-- Joins the operands of each run of multiplications and divisions, from the left. -/
def groupProducts (first : Formula) : Tail → Formula × Tail
  | [] => (first, [])
  | (operator, next) :: rest =>
    if operator.precedence = .product then groupProducts (.binary operator first next) rest
    else
      let (product, tail) := groupProducts next rest
      (first, (operator, product) :: tail)

def joinFromLeft (first : Formula) (tail : Tail) : Formula :=
  tail.foldl (fun left step => .binary step.1 left step.2) first

/-- The formula of a sequence of operands and operators: powers bind tightest, then products, then
sums. -/
def ofSequence (first : Formula) (tail : Tail) : Formula :=
  let (power, powers) := groupPowers first tail
  let (product, products) := groupProducts power powers
  joinFromLeft product products

def signed (signs : Nat) (formula : Formula) : Formula :=
  Nat.repeat Formula.minus signs formula

end Formula

end QuantityCalculator
