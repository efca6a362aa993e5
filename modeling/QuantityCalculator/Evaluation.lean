import QuantityCalculator.Workspace

/-!
Evaluating expressions against a workspace.

What can be computed is computed; what depends on unbound variables is left as an expression.  A chain
folds its known operands into one quantity in front of the others, and a tower that is not known in full
stays as it is.  A variable is not looked up again inside its own expression.
-/

namespace QuantityCalculator

namespace Evaluation

/-- A chain under evaluation: the quantity folded so far, and the operands left over, each with the
operator in front of it. -/
structure Folded where
  known : Option Quantity
  residual : List (Operator × Expression)

def Folded.start : Folded := { known := none, residual := [] }

def Folded.take (folded : Folded) (operator : Operator) : Expression → Except EvaluationError Folded
  | .quantity value => do
    let known ← operator.apply (folded.known.getD (operator.neutral value)) value
    return { folded with known := some known }
  | other => .ok { folded with residual := folded.residual ++ [(operator, other)] }

def rejoin (operands : List Expression) (operators : List Operator) :
    Except EvaluationError Expression :=
  match Expression.joinAll? operands operators with
  | some expression => .ok expression
  | none => .error .brokenChain

/-- The expression of a folded chain.  The known quantity comes first; without one the first operand left
over does, and the operator in front of it is dropped. -/
def Folded.expression (folded : Folded) : Except EvaluationError Expression :=
  let operators := folded.residual.map Prod.fst
  let operands := folded.residual.map Prod.snd
  match folded.known with
  | some value =>
    if folded.residual.isEmpty then .ok (.quantity value)
    else rejoin (.quantity value :: operands) operators
  | none => rejoin operands (operators.drop 1)

def leading : List Operator → Operator
  | [] => .add
  | first :: _ => first.forward

def foldStep (evaluate : Expression → Except EvaluationError Expression) (folded : Folded)
    (step : Operator × Expression) : Except EvaluationError Folded := do
  let operand ← evaluate step.2
  folded.take step.1 operand

def foldChain (evaluate : Expression → Except EvaluationError Expression) (operators : List Operator)
    (operands : List Expression) : Except EvaluationError Expression := do
  let steps := (leading operators :: operators).zip operands
  let folded ← steps.foldlM (foldStep evaluate) Folded.start
  folded.expression

/-- Evaluates the operands of a tower from the right, where `exponent` is the power that the operands
behind them make.  There is no result as soon as an operand is not a quantity. -/
def foldTower (evaluate : Expression → Except EvaluationError Expression) (exponent : Quantity) :
    List Expression → Except EvaluationError (Option Quantity)
  | [] => .ok (some exponent)
  | operand :: earlier => do
    match ← evaluate operand with
    | .quantity base => foldTower evaluate (← base.raise exponent) earlier
    | _ => return none

/-- Evaluates a tower, or leaves it as it is. -/
def evaluateTower (evaluate : Expression → Except EvaluationError Expression) (operands : List Expression) :
    Except EvaluationError Expression :=
  match operands.reverse with
  | [] => .ok (.tower operands)
  | last :: earlier => do
    match ← evaluate last with
    | .quantity exponent =>
      match ← foldTower evaluate exponent earlier with
      | some value => return .quantity value
      | none => return .tower operands
    | _ => return .tower operands

/-- Evaluates an expression to a depth.  `active` are the variables whose expressions are being
evaluated. -/
def within (workspace : Workspace) : Nat → List String → Expression → Except EvaluationError Expression
  | 0, _, _ => .error .endlessReference
  | depth + 1, active, expression =>
    match expression with
    | .quantity value => .ok (.quantity value)
    | .var name =>
      if active.contains name then .ok (.var name)
      else
        match workspace.bindings.find? name with
        | none => .ok (.var name)
        | some bound => within workspace depth (name :: active) bound
    | .output index =>
      match workspace.output? index with
      | none => .ok (.output index)
      | some stored => within workspace depth active stored
    | .chain _ operands operators => foldChain (within workspace depth active) operators operands
    | .tower operands => evaluateTower (within workspace depth active) operands
    | .negation operand => (within workspace depth active operand).map Expression.negate

/-- A depth that no evaluation exceeds unless it goes on forever.  Between two references it descends
through one expression.  There are at most as many active variables as bindings, and without a new one a
result that is reached twice is reached again and again. -/
def sufficientDepth (workspace : Workspace) (expression : Expression) : Nat :=
  (workspace.bindings.length + 1) * (workspace.outputs.length + 2) * (workspace.height expression + 1)

end Evaluation

def Expression.evaluate (workspace : Workspace) (expression : Expression) : Except EvaluationError Expression :=
  Evaluation.within workspace (Evaluation.sufficientDepth workspace expression) [] expression

end QuantityCalculator
