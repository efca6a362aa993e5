import QuantityCalculator.Expression.Reading
import QuantityCalculator.Token.Scanner
import QuantityCalculator.Workspace

/-!
Reading lines.

A line assigns an expression to any number of variables and may end with the unit to show the result in.
An expression that starts with an operator continues from the last result.
-/

namespace QuantityCalculator

structure Line where
  /-- The variables to assign to, in the order written. -/
  targets : List String
  expression : Expression
  displayUnit : Option DisplayUnit

namespace Line

def splitDisplayUnit : List Token → Except ReadError (List Token × Option DisplayUnit)
  | [] => .ok ([], none)
  | [.displayUnit unit] => .ok ([], some unit)
  | .displayUnit _ :: next :: _ => .error (.trailingAfterUnit next.describe)
  | token :: rest => (splitDisplayUnit rest).map fun (tokens, unit) => (token :: tokens, unit)

def splitTargets : List Token → Except ReadError (List String × List Token)
  | .var name :: .assign :: rest =>
    (splitTargets rest).map fun (names, tokens) => (name :: names, tokens)
  | other :: .assign :: _ => .error (.notAssignable other.describe)
  | tokens => .ok ([], tokens)

/-- The expression that a line goes on from if it starts with an operator other than a sign: the last result. -/
def leadingResult (workspace : Workspace) : List Token → Except ReadError (Option Expression)
  | .operator operator :: _ =>
    if operator.isSign then .ok none
    else if workspace.settings.continuation && !workspace.outputs.isEmpty then
      .ok (some (.output workspace.outputs.length))
    else .error (.noValueBefore (Token.operator operator).describe)
  | _ => .ok none

/-- Reads the expression of a line, which starts behind its first operand if it continues from a result. -/
def readExpression (workspace : Workspace) (written : List Token) : Except ReadError Expression := do
  let leading ← leadingResult workspace written
  Expression.ofTokens leading written

def ofTokens (workspace : Workspace) (tokens : List Token) : Except ReadError Line := do
  let (assigned, displayUnit) ← splitDisplayUnit tokens
  let (targets, written) ← splitTargets assigned
  let expression ← readExpression workspace written
  return { targets, expression, displayUnit }

def read (workspace : Workspace) (text : String) : Except ReadError Line := do
  let tokens ← Token.scan workspace.outputs.length text
  ofTokens workspace tokens

end Line

end QuantityCalculator
