import QuantityCalculator.Quantity.Basic

/-!
Expressions in normal form.

Sums and products are flat chains: operands joined by operators of one precedence.  Building an expression
splices in a chain of the same precedence and moves signs outwards, so that a sign stays only in front of
an operand that cannot absorb it.
-/

namespace QuantityCalculator

/-- An expression.  A chain holds one operator less than operands. -/
inductive Expression where
  | quantity (value : Quantity)
  | var (name : String)
  /-- An earlier result, counted from one. -/
  | output (index : Nat)
  | chain (precedence : Precedence) (operands : List Expression) (operators : List Operator)
  /-- Powers of powers, evaluated from the right. -/
  | tower (operands : List Expression)
  | negation (operand : Expression)

namespace Expression

/-! ### Negation -/

/-- The operators of a chain after its negation: those of a sum turn around, all others stay. -/
def negateOperators (precedence : Precedence) (operators : List Operator) : List Operator :=
  if precedence = .sum then operators.map (Operator.subtract.through ·) else operators

/-- The negated expression.  A double negation cancels, a quantity is negated itself, a sum is negated
term by term, and a product in its first factor. -/
def negate : Expression → Expression
  | .negation operand => operand
  | .quantity value => .quantity (-value)
  | .chain precedence (first :: rest) operators =>
    .chain precedence (first.negate :: rest) (negateOperators precedence operators)
  | .chain precedence [] operators => .chain precedence [] (negateOperators precedence operators)
  | .var name => .negation (.var name)
  | .output index => .negation (.output index)
  | .tower operands => .negation (.tower operands)

/-- Whether there is an operand at the start that takes the sign of a negation.  A chain without operands
has none. -/
def hasHead : Expression → Bool
  | .chain _ [] _ => false
  | .chain _ (first :: _) _ => first.hasHead
  | _ => true

def negateFirst : List Expression → List Expression
  | [] => []
  | first :: rest => first.negate :: rest

/-! ### Chains -/

structure Links where
  operands : List Expression
  operators : List Operator

/-- Adds an operand at the end of a chain.  A chain of the same precedence is spliced in; the sign of a
negated operand turns the operator of a sum around, or moves to the first factor of a product. -/
def Links.extend (precedence : Precedence) (links : Links) (operator : Operator) :
    Expression → Links
  | .chain inner operands operators =>
    if inner = precedence then
      { operands := links.operands ++ operands
        operators := links.operators ++ operator :: operators.map (operator.through ·) }
    else
      { operands := links.operands ++ [.chain inner operands operators]
        operators := links.operators ++ [operator] }
  | .negation operand =>
    if precedence = .sum then links.extend precedence operator.opposite operand
    else
      { operands := negateFirst links.operands ++ [operand]
        operators := links.operators ++ [operator] }
  | other =>
    { operands := links.operands ++ [other], operators := links.operators ++ [operator] }

/-- The chain that starts with an operand: its own links if it is a chain of that precedence. -/
def Links.start (precedence : Precedence) : Expression → Links
  | .chain inner operands operators =>
    if inner = precedence then { operands, operators }
    else { operands := [.chain inner operands operators], operators := [] }
  | other => { operands := [other], operators := [] }

def join (left : Expression) (operator : Operator) (right : Expression) : Expression :=
  let links := (Links.start operator.precedence left).extend operator.precedence operator right
  .chain operator.precedence links.operands links.operators

def isNegation : Expression → Bool
  | .negation _ => true
  | _ => false

/-- Joins two expressions, if there is a first factor that a sign in a product can move to. -/
def join? (left : Expression) (operator : Operator) (right : Expression) : Option Expression :=
  if operator.precedence != .sum && right.isNegation && !left.hasHead then none
  else some (left.join operator right)

/-- Joins operands by operators, from the left.  There has to be one operator less than operands, and all
operators have to be of one precedence. -/
def joinAll? (operands : List Expression) (operators : List Operator) : Option Expression :=
  match operands, operators with
  | [], _ => none
  | [single], [] => some single
  | first :: rest, operator :: others =>
    if rest.length = others.length + 1 && others.all (·.precedence = operator.precedence) then
      ((operator :: others).zip rest).foldlM (fun left step => left.join? step.1 step.2) first
    else none
  | _, _ => none

def joinSteps (first : Expression) (steps : List (Operator × Expression)) : Expression :=
  steps.foldl (fun left step => left.join step.1 step.2) first

def towerOf : List Expression → Expression
  | [single] => single
  | operands => .tower operands

def assemble (first : Expression) (steps : List (Operator × Expression)) : Precedence → Expression
  | .power => towerOf (first :: steps.map Prod.snd)
  | .sum | .product => joinSteps first steps

def value? : Expression → Option Quantity
  | .quantity value => some value
  | _ => none

theorem value?_eq_some {expression : Expression} {value : Quantity} :
    expression.value? = some value ↔ expression = .quantity value := by
  cases expression <;> simp [value?]

/-! ### Size -/

mutual

def height : Expression → Nat
  | .quantity _ => 1
  | .var _ => 1
  | .output _ => 1
  | .chain _ operands _ => heightOfList operands + 1
  | .tower operands => heightOfList operands + 1
  | .negation operand => operand.height + 1

def heightOfList : List Expression → Nat
  | [] => 0
  | first :: rest => max first.height (heightOfList rest)

end

end Expression

end QuantityCalculator
