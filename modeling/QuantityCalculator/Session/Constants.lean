import QuantityCalculator.Measure.Reading
import QuantityCalculator.Quantity.Basic

/-!
Constants that a session knows or can load.
-/

namespace QuantityCalculator.Constants

structure Definition where
  name : String
  value : Float
  unit : String

def setNames : List String := ["chem", "phys"]

def mathematical : List (String × Quantity) :=
  [("e", Quantity.ofNumber (.real 2.718281828459045)),
    ("pi", Quantity.ofNumber (.real 3.141592653589793)),
    ("π", Quantity.ofNumber (.real 3.141592653589793))]

def physical : List Definition :=
  [⟨"G", 6.67430e-11, "N m^2/kg^2"⟩,
    ⟨"g_n", 9.80665, "m/s^2"⟩,
    ⟨"T_0", 273.15, "K"⟩,
    ⟨"p_0", 101325.0, "Pa"⟩,
    ⟨"ε_0", 8.8541878128e-12, "F/m"⟩,
    ⟨"μ_0", 1.25663706212e-6, "H/m"⟩,
    ⟨"k", 8.9875517923e9, "m/F"⟩,
    ⟨"F", 96485.33212, "C/mol"⟩,
    ⟨"c", 2.99792458e8, "m/s"⟩,
    ⟨"c_0", 2.99792458e8, "m/s"⟩,
    ⟨"m_e", 9.1093837015e-31, "kg"⟩,
    ⟨"m_p", 1.67262192369e-27, "kg"⟩,
    ⟨"m_n", 1.67492749804e-27, "kg"⟩,
    ⟨"m_d", 3.3435837724e-27, "kg"⟩,
    ⟨"m_α", 6.6446573357e-27, "kg"⟩,
    ⟨"h", 6.62607015e-34, "J s"⟩,
    ⟨"q_e", 1.602176634e-19, "C"⟩]

def chemical : List Definition :=
  [⟨"u", 1.6605390666e-27, "kg"⟩,
    ⟨"k", 1.380649e-23, "J/K"⟩,
    ⟨"N_A", 6.02214076e23, "1/mol"⟩,
    ⟨"R", 8.314462618, "Pa m^3/mol K"⟩,
    ⟨"R_H", 1.0973731568e7, "1/m"⟩]

def Definition.quantity (definition : Definition) : Except ReadError (String × Quantity) :=
  (Measure.read definition.unit.toList).map fun measure =>
    (definition.name,
      { magnitude := .real definition.value * measure.factor, dimension := measure.dimension })

/-- The constants of a set, in the order in which they are bound.  The chemical constants come on top of
the physical ones. -/
def ofSet? : String → Option (Except ReadError (List (String × Quantity)))
  | "phys" => some (physical.mapM Definition.quantity)
  | "chem" => some ((physical ++ chemical).mapM Definition.quantity)
  | _ => none

end QuantityCalculator.Constants
