import QuantityCalculator.Number.Basic
import QuantityCalculator.Number.Decimal
import QuantityCalculator.Text.Superscript

/-!
How numbers are written.

Doubles show twelve significant digits: positionally from a tenth up to a million, and otherwise as a
mantissa and a power of ten.  Exact numbers show as ratios on request; else as the nearest double, or,
where doubles would overflow or lose digits, from their own decimal exponent.
-/

namespace QuantityCalculator

namespace Scientific

def shownDigits : Nat := 12

/-- Multiplies `result` by `base^n`, squaring the base while halving the exponent. -/
def timesPower (base result : Float) (n : Nat) : Float :=
  if n = 0 then result
  else timesPower (base * base) (if n % 2 = 1 then result * base else result) (n / 2)
termination_by n
decreasing_by exact Nat.div_lt_self (Nat.pos_of_ne_zero ‹_›) Nat.one_lt_two

/-- A power of ten computed in doubles; a negative power is the reciprocal of the positive one. -/
def floatPowerOfTen (exponent : Int) : Float :=
  let power := timesPower 10.0 1.0 exponent.natAbs
  if exponent < 0 then 1.0 / power else power

def nonFiniteText (x : Float) : String :=
  if x.isNaN then "NaN" else if x < 0.0 then "-inf" else "inf"

def withPower (mantissa : String) (exponent : Int) : String :=
  mantissa ++ "·10" ++ Text.raisedPower exponent

/-- A mantissa and its power of ten, after rounding the mantissa.  A mantissa that rounds up to ten
moves one place. -/
def mantissaText (mantissa : Rat) (exponent : Int) : String :=
  let rounded := Decimal.round shownDigits mantissa
  if magnitude rounded.toRat < 10 then withPower rounded.text exponent
  else withPower rounded.tenth.text (exponent + 1)

def floatText (x : Float) : String :=
  match Binary64.toRat? x with
  | none => nonFiniteText x
  | some r =>
    if r = 0 then "0"
    else if 0.1 ≤ x.abs && x.abs < 1000000.0 then (Decimal.round shownDigits r).text
    else
      match Binary64.toInt32? x.abs.log10.floor with
      | none => nonFiniteText x
      | some exponent =>
        let mantissa := x / floatPowerOfTen exponent
        match Binary64.toRat? mantissa with
        | none => withPower (nonFiniteText mantissa) (exponent + 1)
        | some m => mantissaText m exponent

/-- Whether doubles hold all numbers of an order of magnitude without loss of digits. -/
def isDoubleOrder (exponent : Int) : Bool :=
  -300 ≤ exponent && exponent < 300

/-- The text of an exact number.  Decimal exponents from -300 to 299 go through the nearest double, and so do
numbers too long to have one; beyond them the mantissa alone does. -/
def ratText (r : Rat) : String :=
  if r = 0 then "0"
  else
    match (orderOfMagnitude? r).filter (!isDoubleOrder ·) with
    | none => floatText (Binary64.nearest r)
    | some exponent =>
      match Binary64.toRat? (Binary64.nearest (r / powerOfTen exponent)) with
      | none => nonFiniteText 0
      | some m => mantissaText m exponent

def ratioText (r : Rat) : String :=
  if r.den = 1 then Int.repr r.num else Int.repr r.num ++ "/" ++ Nat.repr r.den

end Scientific

def Number.text (number : Number) (fractions : Bool) : String :=
  match number with
  | .exact r => if fractions then Scientific.ratioText r else Scientific.ratText r
  | .real x => Scientific.floatText x

end QuantityCalculator
