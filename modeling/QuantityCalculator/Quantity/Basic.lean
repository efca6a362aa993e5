import QuantityCalculator.Measure.Arithmetic
import QuantityCalculator.UnitName

/-!
Quantities: a magnitude in coherent units, with a dimension.
-/

namespace QuantityCalculator

structure Quantity where
  magnitude : Number
  dimension : Dimension

namespace Quantity

def ofNumber (number : Number) : Quantity :=
  { magnitude := number, dimension := Dimension.one }

/-- So many of a unit.  A factor of one leaves the number as it is. -/
def ofMeasure (number : Number) (measure : Measure) : Quantity :=
  { magnitude := if measure.factor.isOne then number else number * measure.factor
    dimension := measure.dimension }

def measure (quantity : Quantity) : Measure :=
  Measure.coherent quantity.dimension

def kind? (quantity : Quantity) : Option String :=
  quantity.dimension.quantity?

/-! ### Arithmetic -/

protected def neg (quantity : Quantity) : Quantity :=
  { quantity with magnitude := -quantity.magnitude }

instance : Neg Quantity := ⟨Quantity.neg⟩

def add (left right : Quantity) : Except EvaluationError Quantity :=
  if left.dimension = right.dimension then
    .ok { left with magnitude := left.magnitude + right.magnitude }
  else .error (.dimensionMismatch .add left.dimension right.dimension)

def subtract (left right : Quantity) : Except EvaluationError Quantity :=
  if left.dimension = right.dimension then
    .ok { left with magnitude := left.magnitude - right.magnitude }
  else .error (.dimensionMismatch .subtract left.dimension right.dimension)

def multiply (left right : Quantity) : Except EvaluationError Quantity := do
  let measure ← left.measure.multiply right.measure
  return ofMeasure (left.magnitude * right.magnitude) measure

/-- A quotient.  Dividing by zero fails before the dimensions are looked at. -/
def divide (left right : Quantity) : Except EvaluationError Quantity := do
  let magnitude ← left.magnitude.divide right.magnitude
  let measure ← left.measure.divide right.measure
  return ofMeasure magnitude measure

/-- A power, whose exponent has to be a plain number.  The unit is raised before the magnitude. -/
def raise (base exponent : Quantity) : Except EvaluationError Quantity :=
  if exponent.dimension.isOne then do
    let measure ← base.measure.raise exponent.magnitude
    let magnitude ← base.magnitude.raise exponent.magnitude
    return ofMeasure magnitude measure
  else .error (.exponentWithUnit exponent.dimension)

end Quantity

namespace Operator

def apply : Operator → Quantity → Quantity → Except EvaluationError Quantity
  | .add => Quantity.add
  | .subtract => Quantity.subtract
  | .multiply => Quantity.multiply
  | .divide => Quantity.divide
  | .raise => Quantity.raise

/-- What an operator may be applied to in front of a quantity without changing it: zero of the same
dimension in a sum, and one in a product. -/
def neutral (operator : Operator) (quantity : Quantity) : Quantity :=
  match operator.precedence with
  | .sum => { magnitude := Number.zero, dimension := quantity.dimension }
  | _ => Quantity.ofNumber Number.one

end Operator

end QuantityCalculator
