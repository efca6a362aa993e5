import QuantityCalculator.Number.Binary64
import QuantityCalculator.Text.Digits

/-!
Decimals with a fixed number of significant digits.

`orderOfMagnitude` finds the power of ten that leads a rational; `Decimal.round` keeps a given number of
digits from there on; `Decimal.text` writes the result positionally without needless zeros.
-/

namespace QuantityCalculator

def powerOfTen (exponent : Int) : Rat :=
  (10 : Rat) ^ exponent

def magnitude (r : Rat) : Rat :=
  if r < 0 then -r else r

/-- For a rational other than zero, the `e` with `10^e ≤ |r| < 10^(e+1)`.  The difference of the digit
counts of numerator and denominator is either that exponent or one more. -/
def orderOfMagnitude (r : Rat) : Int :=
  let guess : Int := (Text.digitCount r.num.natAbs : Int) - (Text.digitCount r.den : Int)
  if magnitude r < powerOfTen guess then guess - 1 else guess

/-- The order of magnitude of a rational whose numerator and denominator have so many digits that a 32 bit
integer can count them. -/
def orderOfMagnitude? (r : Rat) : Option Int :=
  if Binary64.isInt32 (Text.digitCount r.num.natAbs) && Binary64.isInt32 (Text.digitCount r.den) then
    some (orderOfMagnitude r)
  else none

structure Decimal where
  coefficient : Int
  exponent : Int
  deriving DecidableEq, Repr

namespace Decimal

def toRat (decimal : Decimal) : Rat :=
  (decimal.coefficient : Rat) * powerOfTen decimal.exponent

/-- The decimal nearest to a rational other than zero among those with the given number of significant
digits; a half goes to the even last digit. -/
def round (digits : Nat) (r : Rat) : Decimal :=
  let exponent := orderOfMagnitude r - ((digits : Int) - 1)
  { coefficient := Binary64.roundHalfEven (r / powerOfTen exponent), exponent }

def tenth (decimal : Decimal) : Decimal :=
  { decimal with exponent := decimal.exponent - 1 }

/-- The digits after the point, without zeros at the end. -/
private def fractionText (digits : List Char) : List Char :=
  match (digits.reverse.dropWhile (· == '0')).reverse with
  | [] => []
  | kept => '.' :: kept

def naturalText (n places : Nat) : List Char :=
  let digits := Nat.toDigits 10 n
  let padded := List.replicate (places + 1 - digits.length) '0' ++ digits
  let wholeLength := padded.length - places
  padded.take wholeLength ++ fractionText (padded.drop wholeLength)

/-- The positional form: a sign if negative, the whole part, and after a point the digits that are
needed. -/
def text (decimal : Decimal) : String :=
  let shifted := decimal.coefficient.natAbs * Nat.pow 10 decimal.exponent.toNat
  let digits := naturalText shifted (-decimal.exponent).toNat
  String.ofList (if decimal.coefficient < 0 then '-' :: digits else digits)

end Decimal

end QuantityCalculator
