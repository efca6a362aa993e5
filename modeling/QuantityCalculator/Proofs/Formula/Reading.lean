import QuantityCalculator.Proofs.Formula.Basic
import QuantityCalculator.Token.Basic

/-!
Reading formulas from lexemes.

Reading alternates between two positions: in front of an operand and behind one.  What has been read of
each open group waits on a stack until its parenthesis is closed.
-/

namespace QuantityCalculator.Formula

/-- A group that has been read up to an operand: the operands so far, the last one first and each with the
operator behind it, and the number of signs in front of the operand to come. -/
structure Partial where
  read : List (Formula × Operator)
  signs : Nat

def Partial.start : Partial := { read := [], signs := 0 }

def unread (last : Formula) (tail : Tail) : List (Formula × Operator) → Formula × Tail
  | [] => (last, tail)
  | (formula, operator) :: earlier => unread formula ((operator, last) :: tail) earlier

def close (read : List (Formula × Operator)) (last : Formula) : Formula :=
  let (first, tail) := unread last [] read
  ofSequence first tail

mutual

def readOperand (enclosing : List Partial) (here : Partial) : List Token → Except ReadError Formula
  | [] => .error .endWithoutValue
  | .operator .subtract :: rest =>
    readOperand enclosing { here with signs := here.signs + 1 } rest
  | .leftParen :: rest => readOperand (here :: enclosing) Partial.start rest
  | .quantity value :: rest => readOperator enclosing here.read (signed here.signs (.quantity value)) rest
  | .var name :: rest => readOperator enclosing here.read (signed here.signs (.var name)) rest
  | .output index :: rest => readOperator enclosing here.read (signed here.signs (.output index)) rest
  | other :: _ => .error (.notAValue other.describe)

def readOperator (enclosing : List Partial) (read : List (Formula × Operator)) (last : Formula) :
    List Token → Except ReadError Formula
  | [] => if enclosing.isEmpty then .ok (close read last) else .error .unclosedParen
  | .rightParen :: rest =>
    match enclosing with
    | [] => .error .strayParen
    | outer :: others =>
      readOperator others outer.read (signed outer.signs (.group (close read last))) rest
  | .operator operator :: rest =>
    readOperand enclosing { read := (last, operator) :: read, signs := 0 } rest
  | other :: _ => .error (.notAnOperator other.describe)

end

def ofTokens (tokens : List Token) : Except ReadError Formula :=
  readOperand [] Partial.start tokens

end QuantityCalculator.Formula
