import QuantityCalculator.Number.Scientific
import QuantityCalculator.UnitName

/-!
Names of units of measure.
-/

namespace QuantityCalculator.Measure

def quantity? (measure : Measure) : Option String :=
  (Catalog.standard.entryOf? measure).bind Catalog.Entry.quantity

/-- The name of a unit: its own if it is defined with one, and else its factor, unless that is one, and
the name of the coherent unit. -/
def name (measure : Measure) : String :=
  match (Catalog.standard.entryOf? measure).bind Catalog.Entry.name with
  | some name => name
  | none =>
    let coherentName := measure.dimension.unitName.text
    if measure.isCoherent then coherentName
    else if coherentName = "" then measure.factor.text false
    else measure.factor.text false ++ " " ++ coherentName

end QuantityCalculator.Measure
