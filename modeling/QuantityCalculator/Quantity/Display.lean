import QuantityCalculator.Measure.Reading
import QuantityCalculator.Number.Scientific
import QuantityCalculator.Quantity.Basic

/-!
How quantities are shown.

A quantity is shown as a number and the name of its unit, with the prefix that brings the number closest
to one from above.  Masses are shown in grams.  On request a quantity is shown in a given unit instead.
-/

namespace QuantityCalculator

/-! ### Choosing a prefix -/

namespace Number

/-- The least positive double of full precision, `2^(-1022)`. -/
def leastNormal : Float := Float.ofBits 4503599627370496

/-- The decimal logarithm of the absolute value.  Zero, infinities and NaN have none.  An exact number
that is out of the range of doubles is split into its decimal exponent and a mantissa, unless it is too long. -/
def logMagnitude? : Number → Option Float
  | .real x => if x == 0.0 || !x.isFinite then none else some x.abs.log10
  | .exact r =>
    if r = 0 then none
    else
      let x := Binary64.nearest r
      if x.isFinite && leastNormal ≤ x.abs then some x.abs.log10
      else
        (orderOfMagnitude? r).map fun exponent =>
          let mantissa := Binary64.nearest (QuantityCalculator.magnitude r / powerOfTen exponent)
          Float.ofInt exponent + mantissa.log10

end Number

/-- How far a prefix leaves a number from one, on a logarithmic scale.  Numbers below one cost three times
as much as numbers above, and one more if they are not exact. -/
def Prefix.cost (logarithm : Float) (exact : Bool) (shift : Int) : Float :=
  let distance := logarithm - Float.ofInt shift
  let cost := if 0.0 ≤ distance then distance else -3.0 * distance
  if !exact && distance < 0.0 then cost + 1.0 else cost

private def cheapest (cost : Prefix → Float) (best : Prefix) : List Prefix → Prefix
  | [] => best
  | next :: rest => cheapest cost (if cost next < cost best then next else best) rest

def UnitName.prefixFor (name : UnitName) (number : Number) : Prefix :=
  match number.logMagnitude? with
  | none => Prefix.empty
  | some logarithm =>
    let allowed := Prefix.shown.filter fun candidate => candidate.symbol = "" || name.allows candidate.symbol
    cheapest (fun candidate => Prefix.cost logarithm number.isExact (candidate.exponent * name.prefixPower))
      Prefix.empty allowed

private theorem cheapest_mem (cost : Prefix → Float) (best : Prefix) (others : List Prefix) :
    cheapest cost best others = best ∨ cheapest cost best others ∈ others := by
  induction others generalizing best with
  | nil => exact Or.inl rfl
  | cons next rest ih =>
      unfold cheapest
      rcases ih (if cost next < cost best then next else best) with chosen | later
      · rw [chosen]
        split
        · exact Or.inr List.mem_cons_self
        · exact Or.inl rfl
      · exact Or.inr (List.mem_cons_of_mem _ later)

/-- Whatever number is shown, its prefix is one that the name takes. -/
theorem UnitName.prefixFor_allowed (name : UnitName) (number : Number) :
    name.prefixFor number = Prefix.empty ∨
      name.prefixFor number ∈ Prefix.all ∧ name.allows (name.prefixFor number).symbol = true := by
  unfold prefixFor
  split
  · exact Or.inl rfl
  · rcases cheapest_mem _ _ _ with isEmpty | member
    · exact Or.inl isEmpty
    · obtain ⟨isShown, fits⟩ := List.mem_filter.mp member
      refine (List.mem_cons.mp isShown).imp_right fun inAll => ?_
      have isPrefix := (List.mem_filter.mp inAll).1
      have nonempty : ∀ candidate, candidate ∈ Prefix.all → decide (candidate.symbol = "") = false := by decide
      rw [nonempty _ isPrefix, Bool.false_or] at fits
      exact ⟨isPrefix, fits⟩

/-! ### Text -/

def withUnit (number unit : String) : String :=
  if unit = "" then number else number ++ " " ++ unit

namespace Quantity

/-- The name under which a mass is shown; its coherent unit has a prefix already. -/
def gramName : UnitName := { text := "g", prefixPower := 1, barred := [] }

def named (quantity : Quantity) : Number × UnitName :=
  if quantity.dimension = Dimension.ofBase .mass then (quantity.magnitude * .exact 1000, gramName)
  else (quantity.magnitude, quantity.dimension.unitName)

def shifted (number : Number) (shift : Int) : Number :=
  if shift = 0 then number else number * Number.ofPowerOfTen (-shift)

def text (quantity : Quantity) (fractions : Bool) : String :=
  if quantity.dimension.isOne then quantity.magnitude.text fractions
  else
    let (number, name) := quantity.named
    let chosen := name.prefixFor number
    withUnit ((shifted number (chosen.exponent * name.prefixPower)).text fractions)
      (chosen.symbol ++ name.text)

def textIn (quantity : Quantity) (fractions : Bool) : Option DisplayUnit → Except EvaluationError String
  | none => .ok (quantity.text fractions)
  | some unit =>
    if unit.measure.convertsTo quantity.measure then do
      let number ← quantity.magnitude.divide unit.measure.factor
      return withUnit (number.text fractions) unit.text
    else .error (.incompatibleUnit quantity.dimension unit.text)

end Quantity

end QuantityCalculator
