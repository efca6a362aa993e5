/-!
Why a line cannot be read.
-/

namespace QuantityCalculator

/-- The causes for which a line or a unit cannot be read.  Offending text and the descriptions of
offending lexemes are carried along for the message. -/
inductive ReadError where
  | unreadable (text : String)
  | noGreekLetter (letter : Char)
  | noSuchUnit (name : String)
  | badPower (power : String)
  | badNumber (text : String)
  | strayParen
  | unclosedParen
  | notAssignable (target : String)
  | endWithoutValue
  | noValueBefore (before : String)
  | notAValue (found : String)
  | notAnOperator (found : String)
  | noSuchResult (index : Nat)
  | trailingAfterUnit (found : String)
  | missingUnit (marker : String)
  deriving DecidableEq, Repr

namespace ReadError

def message : ReadError → String
  | unreadable text => "invalid syntax at '" ++ text ++ "'"
  | noGreekLetter letter => "unknown escape \\" ++ String.ofList [letter]
  | noSuchUnit name => "unknown unit " ++ name
  | badPower power => "invalid power " ++ power
  | badNumber text => "invalid number " ++ text
  | strayParen => "unmatched parenthesis"
  | unclosedParen => "missing closing parenthesis"
  | notAssignable target => "cannot assign to " ++ target
  | endWithoutValue => "missing value at end of line"
  | noValueBefore before => "missing value before " ++ before
  | notAValue found => "found " ++ found ++ " when expecting a value"
  | notAnOperator found => "found " ++ found ++ " when expecting an operator"
  | noSuchResult index => "no such result [" ++ Nat.repr index ++ "]"
  | trailingAfterUnit found => "found " ++ found ++ " after unit cast"
  | missingUnit marker => "missing unit after " ++ marker

end ReadError

end QuantityCalculator
