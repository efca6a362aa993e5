import QuantityCalculator.Catalog.Standard
import QuantityCalculator.Number.Arithmetic
import QuantityCalculator.ReadError
import QuantityCalculator.Text.Blank
import QuantityCalculator.Text.Digits
import QuantityCalculator.Text.Superscript

/-!
Reading units.

A unit is written as terms separated by blanks and, after a stroke, the terms it is divided by.  A term is
the name of a unit, possibly with a prefix and a whole power.  A half that is just the digit one stands
for no terms at all.
-/

namespace QuantityCalculator.Measure

/-! ### Terms -/

def prefixed? (name : List Char) (candidate : Prefix) : Option Measure := do
  let rest ← candidate.symbol.toList.isPrefixOf? name
  let entry ← Catalog.standard.lookup? (String.ofList rest)
  if entry.allows candidate.symbol then
    some
      { dimension := entry.measure.dimension
        factor := Number.ofPowerOfTen candidate.exponent * entry.measure.factor }
  else none

/-- The unit of a name: an exact match first, then the first prefix that fits. -/
def ofName (name : List Char) : Except ReadError Measure :=
  match Catalog.standard.lookup? (String.ofList name) with
  | some entry => .ok entry.measure
  | none =>
    match Prefix.all.findSome? (prefixed? name) with
    | some measure => .ok measure
    | none => .error (.noSuchUnit (String.ofList name))

def readPower : Option (List Char) → Except ReadError Int
  | none => .ok 1
  | some text =>
    match Text.readInt? text with
    | some power =>
      if Binary64.isInt32 power then .ok power else .error (.badPower (String.ofList text))
    | none => .error (.badPower (String.ofList text))

/-- A product of a unit with a power of another, if exponents and factor stay in range. -/
def timesPower? (measure term : Measure) (power : Int) : Option Measure := do
  let powered ← term.dimension.pow? power
  let dimension ← measure.dimension.mul? powered
  let factor ← (term.factor.raise (.exact (power : Rat))).toOption
  return { dimension, factor := measure.factor * factor }

def timesTerm (measure : Measure) (term : List Char) : Except ReadError Measure := do
  let (name, powerText) := Text.nameAndPower term
  let power ← readPower powerText
  let base ← ofName name
  match measure.timesPower? base power with
  | some product => return product
  | none => throw (.badPower (Int.repr power))

/-! ### Units -/

def readHalf (text : List Char) : Except ReadError Measure :=
  match Text.words text with
  | [['1']] => .ok Measure.one
  | terms => terms.foldlM timesTerm Measure.one

def quotient? (numerator denominator : Measure) : Option Measure := do
  let dimension ← numerator.dimension.div? denominator.dimension
  let factor ← (numerator.factor.divide denominator.factor).toOption
  return { dimension, factor }

/-- Reads a unit.  Only the first stroke divides; another one would be part of a name. -/
def read (text : List Char) : Except ReadError Measure := do
  let numerator ← readHalf (text.takeWhile (· != '/'))
  let denominator ← readHalf ((text.dropWhile (· != '/')).drop 1)
  match quotient? numerator denominator with
  | some measure => return measure
  | none => throw (.badPower (String.ofList (Text.trim text)))

end QuantityCalculator.Measure

namespace QuantityCalculator

structure DisplayUnit where
  text : String
  measure : Measure

/-- Reads a unit to show results in; blanks around it do not count. -/
def DisplayUnit.read (text : List Char) : Except ReadError DisplayUnit := do
  let trimmed := Text.trim text
  let measure ← Measure.read trimmed
  return { text := String.ofList trimmed, measure }

end QuantityCalculator
