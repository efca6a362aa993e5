import QuantityCalculator.Proofs.Evaluation.Range
import QuantityCalculator.Proofs.Formula.Meaning
import QuantityCalculator.Proofs.Line

/-!
Lines compute what they say.

Reading a line splices its groups into flat chains and moves its signs, and evaluation folds these chains
from a neutral quantity.  The result is still the amount of the line as written, with signs first, powers
from the right, and products and sums from the left.
-/

namespace QuantityCalculator

namespace Line

/-- The amount of the lexemes of a line, grouped as the grammar says. -/
def Textbook (workspace : Workspace) (tokens : List Token) (amount : Amount) : Prop :=
  ∃ targets formula unit, Derives workspace tokens targets formula unit ∧
    formula.textbook? workspace.valuation = some amount

/-- The grammar finds one formula only in the lexemes of a line. -/
theorem expression_of_derives {workspace : Workspace} {tokens : List Token} {line : Line}
    (accepted : ofTokens workspace tokens = .ok line) {targets : List String} {formula : Formula}
    {unit : Option DisplayUnit} (written : Derives workspace tokens targets formula unit) :
    line.expression = formula.normalize := by
  rw [ofTokens_of_derives written] at accepted
  rw [← Except.ok.inj accepted]

/-- A line with a textbook amount stands for it once its groups are spliced and its signs moved. -/
theorem amount?_of_textbook {workspace : Workspace} {tokens : List Token} {line : Line} {amount : Amount}
    (accepted : ofTokens workspace tokens = .ok line) (textbook : Textbook workspace tokens amount) :
    line.expression.WellFormed ∧ line.expression.amount? workspace.valuation = some amount := by
  obtain ⟨targets, formula, unit, written, makes⟩ := textbook
  rw [expression_of_derives accepted written]
  refine ⟨Formula.normalize_wellFormed formula, ?_⟩
  rw [Formula.amount?_normalize, Formula.opened?_of_textbook? workspace.valuation makes]
  rfl

/-- A line with a textbook amount is evaluated to it, unless a product or a power that is computed on the way is not
in the range of exponents. -/
theorem evaluate_of_textbook {workspace : Workspace} {tokens : List Token} {line : Line}
    {amount : Amount} (accepted : ofTokens workspace tokens = .ok line)
    (textbook : Textbook workspace tokens amount) :
    line.expression.evaluate workspace =
      if line.expression.InRange workspace.valuation then .ok (.quantity amount.quantity)
      else .error .overflow := by
  obtain ⟨wellFormed, means⟩ := amount?_of_textbook accepted textbook
  exact Evaluation.evaluate_eq_ite wellFormed means

def nestedWorkspace : Workspace :=
  { Workspace.empty with
    outputs := [.quantity (.ofNumber (.exact 4))]
    bindings := [("x", .quantity (.ofNumber (.exact 5)))] }

/-- The formula `6 - (x - 2 / (3 / -[1])) - 2 ^ 3 ^ 0`. -/
def nestedFormula : Formula :=
  .binary .subtract
    (.binary .subtract (.quantity (.ofNumber (.exact 6)))
      (.group (.binary .subtract (.var "x")
        (.binary .divide (.quantity (.ofNumber (.exact 2)))
          (.group (.binary .divide (.quantity (.ofNumber (.exact 3))) (.minus (.output 1))))))))
    (.binary .raise (.quantity (.ofNumber (.exact 2)))
      (.binary .raise (.quantity (.ofNumber (.exact 3))) (.quantity (.ofNumber (.exact 0)))))

def nestedTokens : List Token :=
  [.quantity (.ofNumber (.exact 6)), .operator .subtract, .leftParen, .var "x", .operator .subtract,
    .quantity (.ofNumber (.exact 2)), .operator .divide, .leftParen, .quantity (.ofNumber (.exact 3)),
    .operator .divide, .operator .subtract, .output 1, .rightParen, .rightParen, .operator .subtract,
    .quantity (.ofNumber (.exact 2)), .operator .raise, .quantity (.ofNumber (.exact 3)), .operator .raise,
    .quantity (.ofNumber (.exact 0))]

theorem evaluate_of_textbook_nested :
    nestedFormula.normalize.evaluate nestedWorkspace = .ok (.quantity (.ofNumber (.exact (-11 / 3)))) := by
  have accepted : ofTokens nestedWorkspace nestedTokens =
      .ok { targets := [], expression := nestedFormula.normalize, displayUnit := none } := rfl
  have continues : Continues nestedWorkspace nestedTokens nestedTokens :=
    .whole fun operator starts => by cases starts
  have derives : Derives nestedWorkspace nestedTokens [] nestedFormula none :=
    ⟨nestedTokens, nestedTokens, rfl, continues, Formula.derives_of_ofTokens rfl⟩
  have makes : nestedFormula.textbook? nestedWorkspace.valuation = some ⟨-11 / 3, Dimension.one⟩ := by
    decide +kernel
  have inRange : nestedFormula.normalize.InRange nestedWorkspace.valuation := by
    decide +kernel
  have evaluated := evaluate_of_textbook accepted ⟨[], nestedFormula, none, derives, makes⟩
  rw [if_pos inRange] at evaluated
  exact evaluated

end Line

end QuantityCalculator
