import QuantityCalculator.Quantity.Display

/-!
Lexemes of an input line.

Literals, references to results and display units are resolved while a line is scanned, so a lexeme
carries what it denotes.
-/

namespace QuantityCalculator

inductive Token where
  | displayUnit (unit : DisplayUnit)
  | output (index : Nat)
  | operator (operator : Operator)
  | var (name : String)
  | quantity (value : Quantity)
  | assign
  | equals
  | leftParen
  | rightParen

def Token.describe : Token → String
  | .displayUnit unit => "unit cast " ++ unit.text
  | .output index => "output ref [" ++ Nat.repr index ++ "]"
  | .operator op => "operator " ++ op.symbol
  | .var name => "variable " ++ name
  | .quantity value => "value " ++ value.text false
  | .assign => "assignment"
  | .equals => "equals"
  | .leftParen => "left paren"
  | .rightParen => "right paren"

end QuantityCalculator
