import QuantityCalculator.EvaluationError.Basic
import QuantityCalculator.Measure.Naming

/-!
The wording of evaluation errors.
-/

namespace QuantityCalculator.EvaluationError

private def verb : Operator → String
  | .add => "add"
  | .subtract => "subtract"
  | .multiply => "multiply"
  | .divide => "divide"
  | .raise => "raise"

private def dimensionName (dimension : Dimension) : String :=
  (Measure.coherent dimension).name

def message : EvaluationError → String
  | dimensionMismatch operator left right =>
    "unit mismatch: cannot " ++ verb operator ++ " " ++ dimensionName left ++ " and " ++
      dimensionName right
  | exponentWithUnit dimension => "cannot raise to power with unit " ++ dimensionName dimension
  | irrationalPower unit power =>
    "cannot raise " ++ unit.name ++ " to non-rational power " ++ power.text false
  | indivisibleExponents unit power =>
    "cannot raise " ++ unit.name ++ " to power " ++ power.text false ++ ": dimensions not divisible"
  | incompatibleUnit dimension shown =>
    "cannot display " ++ dimensionName dimension ++ " as " ++ shown
  | divisionByZero => "division by zero"
  | notReal base power =>
    "raising " ++ base.text false ++ " to power " ++ power.text false ++ " has no real result"
  | overflow => "numeric overflow"
  | endlessReference => "result refers to itself"
  | brokenChain => "operators do not fit their operands"

end QuantityCalculator.EvaluationError
