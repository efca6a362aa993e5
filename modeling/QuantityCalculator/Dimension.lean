import QuantityCalculator.Number.Binary64
import QuantityCalculator.Text.Superscript

/-!
Dimensions: products of powers of the seven base quantities.

Exponents are whole numbers of 32 bits.  Products, quotients and powers of dimensions add, subtract and
scale the exponents and are undefined where one of them would leave that range.
-/

namespace QuantityCalculator

inductive BaseQuantity where
  | mass
  | length
  | time
  | current
  | temperature
  | amount
  | luminosity
  deriving DecidableEq, Repr

namespace BaseQuantity

/-- The base quantities in the order in which names list them. -/
def all : List BaseQuantity :=
  [.mass, .length, .time, .current, .temperature, .amount, .luminosity]

def symbol : BaseQuantity → String
  | .mass => "kg"
  | .length => "m"
  | .time => "s"
  | .current => "A"
  | .temperature => "K"
  | .amount => "mol"
  | .luminosity => "cd"

end BaseQuantity

structure Dimension where
  mass : Int
  length : Int
  time : Int
  current : Int
  temperature : Int
  amount : Int
  luminosity : Int
  deriving DecidableEq, Repr

namespace Dimension

def exponent (dimension : Dimension) : BaseQuantity → Int
  | .mass => dimension.mass
  | .length => dimension.length
  | .time => dimension.time
  | .current => dimension.current
  | .temperature => dimension.temperature
  | .amount => dimension.amount
  | .luminosity => dimension.luminosity

def ofExponents (exponents : BaseQuantity → Int) : Dimension where
  mass := exponents .mass
  length := exponents .length
  time := exponents .time
  current := exponents .current
  temperature := exponents .temperature
  amount := exponents .amount
  luminosity := exponents .luminosity

@[simp] theorem exponent_ofExponents (exponents : BaseQuantity → Int) (base : BaseQuantity) :
    (ofExponents exponents).exponent base = exponents base := by
  cases base <;> rfl

/-- Dimensions with the same exponents are equal. -/
theorem eq_of_exponent {left right : Dimension}
    (same : ∀ base, left.exponent base = right.exponent base) : left = right := by
  cases left
  cases right
  simp only [mk.injEq]
  exact ⟨same .mass, same .length, same .time, same .current, same .temperature, same .amount,
    same .luminosity⟩

def ofExponents? (exponents : BaseQuantity → Int) : Option Dimension :=
  if BaseQuantity.all.all fun base => Binary64.isInt32 (exponents base) then
    some (ofExponents exponents)
  else none

def one : Dimension :=
  ofExponents fun _ => 0

def ofBase (base : BaseQuantity) : Dimension :=
  ofExponents fun other => if other = base then 1 else 0

def ofBases (numerator denominator : List BaseQuantity) : Dimension :=
  ofExponents fun base => (numerator.count base : Int) - (denominator.count base : Int)

def isOne (dimension : Dimension) : Bool :=
  dimension = one

def factors (dimension : Dimension) : List (BaseQuantity × Int) :=
  (BaseQuantity.all.map fun base => (base, dimension.exponent base)).filter fun factor => factor.2 != 0

def largestPower (dimension : Dimension) : Nat :=
  BaseQuantity.all.foldl (fun largest base => max largest (dimension.exponent base).natAbs) 0

theorem largestPower_le_iff {dimension : Dimension} {bound : Nat} :
    dimension.largestPower ≤ bound ↔ ∀ base, (dimension.exponent base).natAbs ≤ bound := by
  simp only [largestPower, BaseQuantity.all, List.foldl_cons, List.foldl_nil, Nat.max_le, Nat.zero_le, true_and]
  constructor
  · rintro ⟨⟨⟨⟨⟨⟨mass, length⟩, time⟩, current⟩, temperature⟩, amount⟩, luminosity⟩ base
    cases base <;> assumption
  · exact fun each => ⟨⟨⟨⟨⟨⟨each .mass, each .length⟩, each .time⟩, each .current⟩, each .temperature⟩, each .amount⟩,
      each .luminosity⟩

/-! ### Products, quotients, powers and roots -/

def mul? (left right : Dimension) : Option Dimension :=
  ofExponents? fun base => left.exponent base + right.exponent base

def div? (left right : Dimension) : Option Dimension :=
  ofExponents? fun base => left.exponent base - right.exponent base

def pow? (dimension : Dimension) (power : Int) : Option Dimension :=
  ofExponents? fun base => dimension.exponent base * power

def root? (dimension : Dimension) (degree : Int) : Option Dimension :=
  if degree ≠ 0 && BaseQuantity.all.all fun base => dimension.exponent base % degree = 0 then
    some (ofExponents fun base => dimension.exponent base / degree)
  else none

/-- The power to which one dimension has to be raised to give another.  The first base quantity that
occurs in the first dimension decides which power that can be. -/
def powerGiving? (dimension target : Dimension) : Option Int :=
  match dimension.factors with
  | [] => none
  | (base, exponent) :: _ =>
    let power := target.exponent base / exponent
    if dimension.pow? power = some target then some power else none

/-! ### Text in base units -/

/-- The factors whose exponents have one sign, each with the absolute value of its exponent. -/
def halfText (factors : List (BaseQuantity × Int)) : String :=
  String.intercalate " "
    (factors.map fun factor => factor.1.symbol ++ Text.raisedPower (factor.2.natAbs : Int))

def baseText (dimension : Dimension) : String :=
  let numerator := dimension.factors.filter fun factor => 0 < factor.2
  let denominator := dimension.factors.filter fun factor => factor.2 < 0
  match numerator.isEmpty, denominator.isEmpty with
  | true, true => ""
  | false, true => halfText numerator
  | true, false => "1 / " ++ halfText denominator
  | false, false => halfText numerator ++ " / " ++ halfText denominator

end Dimension

end QuantityCalculator
