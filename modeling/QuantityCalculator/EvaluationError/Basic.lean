import QuantityCalculator.Measure.Basic
import QuantityCalculator.Operator

/-!
Why an expression has no value.
-/

namespace QuantityCalculator

inductive EvaluationError where
  /-- A sum or difference of quantities of different dimensions. -/
  | dimensionMismatch (operator : Operator) (left right : Dimension)
  /-- An exponent that is not a plain number. -/
  | exponentWithUnit (dimension : Dimension)
  /-- A unit raised to a power that is not known to be rational. -/
  | irrationalPower (unit : Measure) (power : Number)
  /-- A unit whose exponents the denominator of the power does not divide. -/
  | indivisibleExponents (unit : Measure) (power : Number)
  /-- A quantity shown in a unit of another dimension. -/
  | incompatibleUnit (dimension : Dimension) (shown : String)
  | divisionByZero
  /-- A power of a negative number with no real value. -/
  | notReal (base power : Number)
  | overflow
  /-- A stored result or a variable whose value depends on itself without end. -/
  | endlessReference
  /-- A chain whose operators do not fit its operands or are of several precedences. -/
  | brokenChain

end QuantityCalculator
