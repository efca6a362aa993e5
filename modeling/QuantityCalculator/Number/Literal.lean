import QuantityCalculator.Number.Basic
import QuantityCalculator.Text.Blank
import QuantityCalculator.Text.Digits

/-!
Number literals.

A literal with a stroke is a ratio of whole numbers and one without a point is a whole number; both
are exact.  A literal with a point is a decimal and becomes the nearest double.
-/

namespace QuantityCalculator

/-! ### Decimals -/

namespace Number.Literal

/-- The significand `digits · 10^exponent` as a double.  A magnitude that the exponent alone puts out
of range becomes an infinity or a zero without being written out. -/
def decimalValue (digits : Nat) (exponent : Int) : Float :=
  let leading := (Text.digitCount digits : Int) + exponent
  if digits = 0 then 0
  else if 400 < leading then Float.ofBits (UInt64.ofNat Binary64.infinityBits)
  else if leading < -400 then 0
  else Binary64.nearest ((digits : Rat) * (10 : Rat) ^ exponent)

/-- The exponent after the digits of a decimal: nothing, or the letter e and an integer. -/
def readExponent? : List Char → Option Int
  | [] => some 0
  | c :: rest => if c = 'e' || c = 'E' then Text.readInt? rest else none

/-- A decimal without a sign: digits around at most one point, at least one digit in all, and an
optional exponent. -/
def readUnsignedDecimal? (text : List Char) : Option Float :=
  let whole := text.takeWhile Char.isDigit
  let rest := text.dropWhile Char.isDigit
  let (fraction, tail) :=
    match rest with
    | '.' :: after => (after.takeWhile Char.isDigit, after.dropWhile Char.isDigit)
    | _ => ([], rest)
  if whole.isEmpty && fraction.isEmpty then none
  else
    (readExponent? tail).map fun exponent =>
      decimalValue (Nat.ofDigitChars 10 (whole ++ fraction) 0) (exponent - (fraction.length : Int))

def readDecimal? : List Char → Option Float
  | '-' :: text => (readUnsignedDecimal? text).map Float.neg
  | '+' :: text => readUnsignedDecimal? text
  | text => readUnsignedDecimal? text

end Number.Literal

/-! ### Literals -/

/-- Reads a number literal.  A ratio needs a denominator other than zero; blanks around its two
parts are allowed.  A point at the end stands for a point and a zero. -/
def Number.ofLiteral? (text : List Char) : Option Number :=
  if text.contains '/' then do
    let numerator ← Text.readGroupedInt? (Text.trim (text.takeWhile (· != '/')))
    let denominator ← Text.readGroupedInt? (Text.trim ((text.dropWhile (· != '/')).drop 1))
    if denominator = 0 then none
    else some (.exact ((numerator : Rat) / (denominator : Rat)))
  else if text.contains '.' then
    let completed := if text.getLast? = some '.' then text ++ ['0'] else text
    (Literal.readDecimal? completed).map .real
  else
    (Text.readGroupedInt? text).map fun n => .exact (n : Rat)

end QuantityCalculator
