import QuantityCalculator.Dimension
import QuantityCalculator.Number.Basic

/-!
Units of measure: a dimension, and the size of the unit in coherent units of that dimension.
-/

namespace QuantityCalculator

structure Measure where
  dimension : Dimension
  factor : Number

namespace Measure

def coherent (dimension : Dimension) : Measure :=
  { dimension, factor := Number.one }

def one : Measure :=
  coherent Dimension.one

def scale (measure : Measure) (factor : Number) : Measure :=
  { measure with factor := measure.factor * factor }

def same (left right : Measure) : Bool :=
  left.dimension = right.dimension && left.factor.same right.factor

def isCoherent (measure : Measure) : Bool :=
  measure.factor.isOne

def isOne (measure : Measure) : Bool :=
  measure.dimension.isOne && measure.factor.isOne

def convertsTo (left right : Measure) : Bool :=
  left.dimension = right.dimension

theorem convertsTo_iff {left right : Measure} :
    left.convertsTo right = true ↔ left.dimension = right.dimension :=
  decide_eq_true_iff

end Measure

end QuantityCalculator
