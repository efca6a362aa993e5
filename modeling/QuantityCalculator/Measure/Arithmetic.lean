import QuantityCalculator.Number.Arithmetic

/-!
Products, quotients and rational powers of units.
-/

namespace QuantityCalculator.Measure

def inRange (dimension? : Option Dimension) : Except EvaluationError Dimension :=
  match dimension? with
  | some dimension => .ok dimension
  | none => .error .overflow

def multiply (left right : Measure) : Except EvaluationError Measure := do
  let dimension ← inRange (left.dimension.mul? right.dimension)
  return { dimension, factor := left.factor * right.factor }

def divide (left right : Measure) : Except EvaluationError Measure := do
  let dimension ← inRange (left.dimension.div? right.dimension)
  let factor ← left.factor.divide right.factor
  return { dimension, factor }

/-- A unit raised to a power.  The power zero, and any power of the unit of plain numbers, is the unit of
plain numbers.  Otherwise the power has to be rational, numerator and denominator have to be in range,
and the denominator has to divide every exponent. -/
def raise (measure : Measure) (power : Number) : Except EvaluationError Measure :=
  if power.isZero || measure.isOne then .ok Measure.one
  else
    match power.asRat? with
    | none => .error (.irrationalPower measure power)
    | some r =>
      if !Binary64.isInt32 r.num || !Binary64.isInt32 (r.den : Int) then .error .overflow
      else
        match measure.dimension.root? (r.den : Int) with
        | none => .error (.indivisibleExponents measure power)
        | some root => do
          let dimension ← inRange (root.pow? r.num)
          let factor ← measure.factor.raise power
          return { dimension, factor }

end QuantityCalculator.Measure
