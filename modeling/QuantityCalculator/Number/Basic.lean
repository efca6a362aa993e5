import QuantityCalculator.Number.Binary64

/-!
Numbers: exact rationals and doubles.

An operation on two exact numbers is exact; as soon as one operand is a double, both are taken as
doubles.  Whole doubles that are not the rounding of another number count as equal to the exact
number they denote, which `canonical` makes visible.
-/

namespace QuantityCalculator

inductive Number where
  | exact (value : Rat)
  | real (value : Float)

namespace Number

def zero : Number := .exact 0

def one : Number := .exact 1

def ofPowerOfTen (exponent : Int) : Number :=
  .exact ((10 : Rat) ^ exponent)

def ofScientific (significand exponent : Int) : Number :=
  .exact ((significand : Rat) * (10 : Rat) ^ exponent)

def isExact : Number → Bool
  | .exact _ => true
  | .real _ => false

def isZero : Number → Bool
  | .exact r => r = 0
  | .real x => x == 0.0

/-- One, or a double within one rounding step of it. -/
def isOne : Number → Bool
  | .exact r => r = 1
  | .real x => (x - 1.0).abs < 2.220446049250313e-16

def isNegative : Number → Bool
  | .exact r => r < 0
  | .real x => x < 0.0

def toFloat : Number → Float
  | .exact r => Binary64.nearest r
  | .real x => x

/-- The rational that a number denotes for sure: an exact number, or a safe whole double. -/
def asRat? : Number → Option Rat
  | .exact r => some r
  | .real x => (Binary64.toSafeInt? x).map fun n => (n : Rat)

def asInt? (number : Number) : Option Int :=
  number.asRat?.bind fun r => if r.den = 1 then some r.num else none

def canonical (number : Number) : Number :=
  match number.asRat? with
  | some r => .exact r
  | none => .real number.toFloat

/-- Equality of canonical forms.  Doubles compare by value, and a NaN is the same as a NaN. -/
def same (left right : Number) : Bool :=
  match left.canonical, right.canonical with
  | .exact r, .exact s => r = s
  | .real x, .real y => x == y || (x.isNaN && y.isNaN)
  | _, _ => false

/-! ### Ring operations -/

protected def neg : Number → Number
  | .exact r => .exact (-r)
  | .real x => .real (-x)

protected def add : Number → Number → Number
  | .exact r, .exact s => .exact (r + s)
  | left, right => .real (left.toFloat + right.toFloat)

protected def sub : Number → Number → Number
  | .exact r, .exact s => .exact (r - s)
  | left, right => .real (left.toFloat - right.toFloat)

protected def mul : Number → Number → Number
  | .exact r, .exact s => .exact (r * s)
  | left, right => .real (left.toFloat * right.toFloat)

instance : Neg Number := ⟨Number.neg⟩
instance : Add Number := ⟨Number.add⟩
instance : Sub Number := ⟨Number.sub⟩
instance : Mul Number := ⟨Number.mul⟩

end Number

end QuantityCalculator
