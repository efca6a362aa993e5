import QuantityCalculator.Expression.Basic
import QuantityCalculator.ReadError
import QuantityCalculator.Token.Basic

/-!
Reading expressions from lexemes, by descent.

The operands of a sum are read as products, those of a product as powers, and those of a power one by one; an
operand in parentheses is a sum again.  One loop serves all precedences.  An operator that binds less tightly
ends the loop and is left to the caller, as is the parenthesis that closes a group, except for the loop that
the group was opened for.

Reading may be given a leading expression, which is handed down to the first operand and stands in for it.
-/

namespace QuantityCalculator.Expression

/-- An expression from the front of some lexemes, the leading expression if it still waits for an operand, and the
lexemes that follow. -/
structure Front (tokens : List Token) where
  expression : Expression
  leading : Option Expression
  rest : List Token
  length_le : rest.length ≤ tokens.length

/-- The front of lexemes that come later, taken for one of earlier lexemes. -/
def Front.within {later earlier : List Token} (front : Front later) (shorter : later.length ≤ earlier.length) :
    Front earlier :=
  { front with length_le := Nat.le_trans front.length_le shorter }

/-- An expression that ends in front of the lexemes.  The loop of a group does not end there. -/
def endsBefore (closes : Bool) (expression : Expression) (leading : Option Expression) (tokens : List Token) :
    Except ReadError (Front tokens) :=
  if closes then .error .unclosedParen
  else .ok { expression, leading, rest := tokens, length_le := Nat.le_refl _ }

mutual

/-- Reads operands with operators of a precedence between them.  `inGroup` tells whether a parenthesis may end
them, and `closes` whether they reach up to that parenthesis and include it. -/
@[semireducible]
def readChain (precedence : Precedence) (inGroup closes : Bool) (leading : Option Expression)
    (tokens : List Token) : Except ReadError (Front tokens) := do
  let first ← readMember precedence inGroup leading tokens
  let whole ← readSteps precedence inGroup closes first.expression [] first.leading first.rest
  return whole.within first.length_le
termination_by 8 * tokens.length + (6 - 2 * precedence.rank)
decreasing_by
  · have := precedence.rank_le_two
    omega
  · have := precedence.rank_le_two
    have := first.length_le
    omega

@[semireducible]
def readSteps (precedence : Precedence) (inGroup closes : Bool) (first : Expression)
    (steps : List (Operator × Expression)) (leading : Option Expression) (tokens : List Token) :
    Except ReadError (Front tokens) :=
  match tokens with
  | [] => endsBefore closes (assemble first steps precedence) leading []
  | .rightParen :: rest =>
    if !inGroup then .error .strayParen
    else if closes then
      .ok { expression := assemble first steps precedence, leading, rest, length_le := Nat.le_succ _ }
    else endsBefore closes (assemble first steps precedence) leading (.rightParen :: rest)
  | .operator operator :: rest =>
    if operator.precedence.rank < precedence.rank then
      endsBefore closes (assemble first steps precedence) leading (.operator operator :: rest)
    else do
      let next ← readMember precedence inGroup leading rest
      let whole ← readSteps precedence inGroup closes first (steps ++ [(operator, next.expression)])
        next.leading next.rest
      return whole.within (Nat.le_succ_of_le next.length_le)
  | other :: _ => .error (.notAnOperator other.describe)
termination_by 8 * tokens.length
decreasing_by
  · simp only [List.length_cons]
    omega
  · have := next.length_le
    simp only [List.length_cons]
    omega

@[semireducible]
def readMember (precedence : Precedence) (inGroup : Bool) (leading : Option Expression)
    (tokens : List Token) : Except ReadError (Front tokens) :=
  match _found : precedence.tighter? with
  | some tighter => readChain tighter inGroup false leading tokens
  | none => readOperand leading tokens
termination_by 8 * tokens.length + (5 - 2 * precedence.rank)
decreasing_by
  · have := Precedence.rank_lt_of_tighter? _found
    have := tighter.rank_le_two
    omega
  · have := precedence.rank_le_two
    omega

/-- Reads an operand without operators, or takes the leading expression for it. -/
@[semireducible]
def readOperand (leading : Option Expression) (tokens : List Token) : Except ReadError (Front tokens) :=
  match leading, tokens with
  | some expression, tokens => .ok { expression, leading := none, rest := tokens, length_le := Nat.le_refl _ }
  | none, [] => .error .endWithoutValue
  | none, .operator operator :: rest =>
    if operator.isSign then do
      let operand ← readOperand none rest
      return { operand.within (Nat.le_succ _) with expression := operand.expression.negate }
    else .error (.notAValue (Token.operator operator).describe)
  | none, .leftParen :: rest => do
    let content ← readChain .sum true true none rest
    return content.within (Nat.le_succ _)
  | none, .quantity value :: rest =>
    .ok { expression := .quantity value, leading := none, rest, length_le := Nat.le_succ _ }
  | none, .var name :: rest => .ok { expression := .var name, leading := none, rest, length_le := Nat.le_succ _ }
  | none, .output index :: rest =>
    .ok { expression := .output index, leading := none, rest, length_le := Nat.le_succ _ }
  | none, other :: _ => .error (.notAValue other.describe)
termination_by 8 * tokens.length
decreasing_by
  · simp only [List.length_cons]
    omega
  · simp only [List.length_cons, Precedence.rank]
    omega

end

def ofTokens (leading : Option Expression) (tokens : List Token) : Except ReadError Expression := do
  let whole ← readChain .sum false false leading tokens
  return whole.expression

end QuantityCalculator.Expression
