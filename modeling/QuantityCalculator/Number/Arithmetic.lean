import QuantityCalculator.EvaluationError.Basic

/-!
Division and powers of numbers.

Dividing by zero fails.  A power with an exact base and a whole exponent of moderate size is exact; any
other power is computed in doubles and has to be finite.
-/

namespace QuantityCalculator.Number

/-- Whole exponents up to this absolute value keep a power exact. -/
def greatestExactExponent : Nat := 4096

def divide (left right : Number) : Except EvaluationError Number :=
  if right.isZero then .error .divisionByZero
  else
    match left, right with
    | .exact r, .exact s => .ok (.exact (r / s))
    | _, _ => .ok (.real (left.toFloat / right.toFloat))

def exactExponent? : Number → Number → Option (Rat × Int)
  | .exact base, .exact power =>
    if power.den = 1 && power.num.natAbs ≤ greatestExactExponent then some (base, power.num) else none
  | _, _ => none

/-- A power computed in doubles.  A negative base needs a whole exponent. -/
def raiseReal (base power : Number) : Except EvaluationError Number :=
  if base.isNegative && power.asInt?.isNone then .error (.notReal base power)
  else
    let result := Binary64.power base.toFloat power.toFloat
    if result.isFinite then .ok (.real result) else .error .overflow

def raise (base power : Number) : Except EvaluationError Number :=
  if power.isZero then .ok one
  else if base.isZero && power.isNegative then .error .divisionByZero
  else
    match exactExponent? base power with
    | some (r, n) => .ok (.exact (r ^ n))
    | none => raiseReal base power

end QuantityCalculator.Number
