/-!
Doubles as exact rationals, and the double nearest to a rational.

A finite double is `m · 2^q` for whole numbers `m` and `q`.  `toRat?` reads that value off the bits.
`nearest` goes the other way: it measures a rational in units of the last place, rounds to a whole
number of them with ties to even, and lays the result out so that a carry runs into the exponent.
-/

namespace QuantityCalculator.Binary64

/-- The whole number nearest to a rational; a half goes to the even neighbour. -/
def roundHalfEven (r : Rat) : Int :=
  let below := r.floor
  let rest := r - (below : Rat)
  let half : Rat := mkRat 1 2
  if rest < half then below
  else if half < rest then below + 1
  else if below % 2 = 0 then below
  else below + 1

def powerOfTwo (exponent : Int) : Rat :=
  (2 : Rat) ^ exponent

/-- For a positive rational, the exponent of the greatest power of two that does not exceed it. -/
def leadingExponent (r : Rat) : Int :=
  let guess : Int := (Nat.log2 r.num.natAbs : Int) - (Nat.log2 r.den : Int)
  if r < powerOfTwo guess then guess - 1 else guess

/-- The number of significands that share an exponent, `2^52`. -/
def significandCount : Nat := 4503599627370496

def infinityBits : Nat := 2047 * significandCount

def nearestBits (r : Rat) : Nat :=
  let lastPlace := max (leadingExponent r - 52) (-1074)
  let steps := roundHalfEven (r / powerOfTwo lastPlace)
  min ((lastPlace + 1074).toNat * significandCount + steps.toNat) infinityBits

/-- The double nearest to a rational: ties go to the even significand, and magnitudes beyond the
greatest double round to an infinity. -/
def nearest (r : Rat) : Float :=
  if r = 0 then 0
  else if r < 0 then -Float.ofBits (UInt64.ofNat (nearestBits (-r)))
  else Float.ofBits (UInt64.ofNat (nearestBits r))

/-- A double raised to a double.  One raised to anything is one. -/
def power (base exponent : Float) : Float :=
  if base == 1.0 then 1.0 else base.pow exponent

def toRat? (x : Float) : Option Rat :=
  let bits := x.toBits.toNat
  let field := bits / significandCount % 2048
  let fraction := bits % significandCount
  if field = 2047 then none
  else
    let magnitude : Rat :=
      if field = 0 then (fraction : Rat) * powerOfTwo (-1074)
      else ((significandCount + fraction : Nat) : Rat) * powerOfTwo ((field : Int) - 1075)
    some (if bits / significandCount / 2048 = 1 then -magnitude else magnitude)

def toInt? (x : Float) : Option Int :=
  (toRat? x).bind fun r => if r.den = 1 then some r.num else none

/-- The greatest `n` such that every whole number up to `n` is a double, `2^53 - 1`. -/
def greatestSafeInt : Nat := 9007199254740991

/-- The value of a double that is a whole number and is not the rounding of any other. -/
def toSafeInt? (x : Float) : Option Int :=
  (toInt? x).bind fun n => if n.natAbs ≤ greatestSafeInt then some n else none

def isInt32 (n : Int) : Bool :=
  -2147483648 ≤ n && n ≤ 2147483647

def toInt32? (x : Float) : Option Int :=
  (toInt? x).bind fun n => if isInt32 n then some n else none

end QuantityCalculator.Binary64
