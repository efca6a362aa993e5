/-!
Decimal digits: reading natural numbers and integers, and counting the digits of a number.
-/

namespace QuantityCalculator.Text

def readNat? (text : List Char) : Option Nat :=
  if !text.isEmpty && text.all Char.isDigit then some (Nat.ofDigitChars 10 text 0) else none

def readInt? : List Char → Option Int
  | '-' :: digits => (readNat? digits).map fun n => -(n : Int)
  | '+' :: digits => (readNat? digits).map Int.ofNat
  | digits => (readNat? digits).map Int.ofNat

/-- A natural number whose digits may be grouped by low lines, except before the first digit. -/
def readGroupedNat? : List Char → Option Nat
  | '_' :: _ => none
  | text => readNat? (text.filter (· != '_'))

/-- An integer with grouped digits: an optional sign and then a grouped natural number. -/
def readGroupedInt? : List Char → Option Int
  | '-' :: digits => (readGroupedNat? digits).map fun n => -(n : Int)
  | '+' :: digits => (readGroupedNat? digits).map Int.ofNat
  | digits => (readGroupedNat? digits).map Int.ofNat

/-- How many decimal digits a natural number is written with; zero has one. -/
def digitCount (n : Nat) : Nat :=
  (Nat.toDigits 10 n).length

end QuantityCalculator.Text
