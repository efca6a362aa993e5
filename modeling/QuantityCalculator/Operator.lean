/-!
Operators and how tightly they bind.

Operators of one precedence come in pairs: addition with subtraction, multiplication with division.  The
opposite of an operator is the other member of its pair; its forward form is the member that does not
invert.  Raising to a power is a pair of its own.
-/

namespace QuantityCalculator

/-- How tightly an operator binds, from loose to tight. -/
inductive Precedence where
  | sum
  | product
  | power
  deriving DecidableEq, Repr

namespace Precedence

def rank : Precedence → Nat
  | .sum => 0
  | .product => 1
  | .power => 2

def tighter? : Precedence → Option Precedence
  | .sum => some .product
  | .product => some .power
  | .power => none

theorem rank_lt_of_tighter? {precedence tighter : Precedence}
    (found : precedence.tighter? = some tighter) : precedence.rank < tighter.rank := by
  cases precedence <;> cases found <;> decide

theorem eq_of_rank {precedence other : Precedence} (same : precedence.rank = other.rank) : precedence = other := by
  cases precedence <;> cases other <;> first | rfl | cases same

theorem rank_le_two (precedence : Precedence) : precedence.rank ≤ 2 := by
  cases precedence <;> decide

end Precedence

inductive Operator where
  | add
  | subtract
  | multiply
  | divide
  | raise
  deriving DecidableEq, Repr

namespace Operator

def all : List Operator :=
  [.add, .subtract, .multiply, .divide, .raise]

def symbol : Operator → String
  | .add => "+"
  | .subtract => "-"
  | .multiply => "*"
  | .divide => "/"
  | .raise => "^"

def precedence : Operator → Precedence
  | .add | .subtract => .sum
  | .multiply | .divide => .product
  | .raise => .power

def opposite : Operator → Operator
  | .add => .subtract
  | .subtract => .add
  | .multiply => .divide
  | .divide => .multiply
  | .raise => .raise

/-- The member of the pair that does not invert. -/
def forward : Operator → Operator
  | .add | .subtract => .add
  | .multiply | .divide => .multiply
  | .raise => .raise

/-- The operator that joins an operand of a group to what stands before the group, where `outer` joins
the group and `inner` joins the operand inside it: `a - (b - c)` is `a - b + c`. -/
def through (outer inner : Operator) : Operator :=
  if outer = inner then outer.forward else outer.forward.opposite

def isSign : Operator → Bool
  | .subtract => true
  | _ => false

theorem isSign_iff {operator : Operator} : operator.isSign = true ↔ operator = .subtract := by
  cases operator <;> decide

/-! ### Pairs -/

theorem precedence_opposite (operator : Operator) :
    operator.opposite.precedence = operator.precedence := by
  cases operator <;> rfl

theorem precedence_forward (operator : Operator) :
    operator.forward.precedence = operator.precedence := by
  cases operator <;> rfl

/-- An operator keeps its precedence when it moves out of a group. -/
theorem precedence_through (outer inner : Operator) :
    (outer.through inner).precedence = outer.precedence := by
  cases outer <;> cases inner <;> rfl

/-- Moving an operator out of a group behind a minus sign twice gives it back. -/
theorem subtract_through_through (operator : Operator) (isSum : operator.precedence = .sum) :
    Operator.subtract.through (Operator.subtract.through operator) = operator := by
  cases operator <;> first | rfl | cases isSum

end Operator

end QuantityCalculator
