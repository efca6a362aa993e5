import QuantityCalculator.Expression.Basic
import QuantityCalculator.Quantity.Display

/-!
How expressions are written.

An operand is put in parentheses where it would bind differently without them: a chain inside an operator
that binds at least as tightly, and a tower inside a tower or behind a sign.
-/

namespace QuantityCalculator.Expression

def needsParens (precedence : Precedence) : Expression → Bool
  | .chain inner _ _ => inner.rank ≤ precedence.rank
  | .tower _ => precedence = .power
  | _ => false

def parenthesized (text : String) (parens : Bool) : String :=
  if parens then "(" ++ text ++ ")" else text

mutual

/-- The text of an expression; with `fractions`, exact numbers are written as ratios. -/
def text (fractions : Bool) : Expression → String
  | .quantity value => value.text fractions
  | .var name => name
  | .output index => "[" ++ Nat.repr index ++ "]"
  | .chain precedence operands operators => chainText fractions precedence operands operators
  | .tower operands => towerText fractions operands
  | .negation operand => "-" ++ parenthesized (operand.text fractions) (operand.needsParens .power)

def chainText (fractions : Bool) (precedence : Precedence) :
    List Expression → List Operator → String
  | [], _ => ""
  | first :: rest, operators =>
    parenthesized (first.text fractions) (first.needsParens precedence) ++
      chainTail fractions precedence rest operators

def chainTail (fractions : Bool) (precedence : Precedence) :
    List Expression → List Operator → String
  | operand :: rest, operator :: operators =>
    " " ++ operator.symbol ++ " " ++
      parenthesized (operand.text fractions) (operand.needsParens precedence) ++
      chainTail fractions precedence rest operators
  | _, _ => ""

def towerText (fractions : Bool) : List Expression → String
  | [] => ""
  | [last] => parenthesized (last.text fractions) (last.needsParens .power)
  | operand :: rest =>
    parenthesized (operand.text fractions) (operand.needsParens .power) ++ " ^ " ++
      towerText fractions rest

end

/-! ### What can be written -/

mutual

/-- Whether an expression has a text: all chains that the text shows have an operand. -/
def hasText : Expression → Bool
  | .quantity _ => true
  | .var _ => true
  | .output _ => true
  | .chain _ [] _ => false
  | .chain _ (first :: rest) operators => first.hasText && tailHasText rest operators
  | .tower operands => allHaveText operands
  | .negation operand => operand.hasText

/-- Whether the operands of a chain after its first one have a text; operands without an operator are not
shown. -/
def tailHasText : List Expression → List Operator → Bool
  | operand :: rest, _ :: operators => operand.hasText && tailHasText rest operators
  | _, _ => true

def allHaveText : List Expression → Bool
  | [] => true
  | first :: rest => first.hasText && allHaveText rest

end

def describe : Expression → String
  | .quantity value => "value " ++ value.text false
  | .var name => "variable " ++ name
  | .output index => "output ref [" ++ Nat.repr index ++ "]"
  | .chain precedence operands operators =>
    "expression " ++ text false (.chain precedence operands operators)
  | .tower operands => "expression " ++ text false (.tower operands)
  | .negation operand => "expression " ++ text false (.negation operand)

end QuantityCalculator.Expression
