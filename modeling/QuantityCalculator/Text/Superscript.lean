/-!
Powers written with superscript digits.

A power of one is not written.  A term may carry its power after a caret or in superscripts;
`nameAndPower` separates the two notations from the name.
-/

namespace QuantityCalculator.Text

def superscriptDigits : List Char :=
  ['⁰', '¹', '²', '³', '⁴', '⁵', '⁶', '⁷', '⁸', '⁹']

def superscriptMinus : Char := '⁻'

def isSuperscriptDigit (c : Char) : Bool :=
  superscriptDigits.contains c

def isSuperscript (c : Char) : Bool :=
  isSuperscriptDigit c || c == superscriptMinus

def superscriptOf? (c : Char) : Option Char :=
  if c = '-' then some superscriptMinus
  else if c.isDigit then superscriptDigits[c.toNat - '0'.toNat]?
  else none

def digitOf? (c : Char) : Option Char :=
  if c = superscriptMinus then some '-'
  else (superscriptDigits.findIdx? (· == c)).map Nat.digitChar

/-- A power in superscripts; the power one is left out. -/
def raisedPower (power : Int) : String :=
  if power = 1 then "" else String.ofList ((Int.repr power).toList.filterMap superscriptOf?)

/-- A term's name and the text of its power, if it has one.  The text after the first caret is the
power as it stands; otherwise the superscripts at the end are the power, rewritten with ordinary
digits. -/
def nameAndPower (term : List Char) : List Char × Option (List Char) :=
  if term.contains '^' then
    (term.takeWhile (· != '^'), some ((term.dropWhile (· != '^')).drop 1))
  else
    let raised := (term.reverse.takeWhile isSuperscript).reverse
    if raised.isEmpty then (term, none)
    else (term.take (term.length - raised.length), some (raised.filterMap digitOf?))

end QuantityCalculator.Text
