import QuantityCalculator.Proofs.Evaluation.KnownTerms
import QuantityCalculator.Proofs.Session.Reachable

/-!
Known terms of the results in a session.

A line is evaluated to a chain that starts with all that is known, unless an operand refers to a chain of the same
precedence that has a known term of its own: that term is spliced in behind what has been folded.
-/

namespace QuantityCalculator.Session

open Expression (isQuantity)
open Evaluation (Refers LeavesOneKnown foldedTerms within)

/-- No operand but the first one is a quantity. -/
def LeadsWithKnown (operands : List Expression) : Prop :=
  ∀ operand, operand ∈ operands.tail → operand.isQuantity = false

theorem leadsWithKnown_iff {operands : List Expression} :
    LeadsWithKnown operands ↔ true ∉ (operands.map isQuantity).tail := by
  rw [← List.map_tail, List.mem_map, LeadsWithKnown]
  simp only [not_exists, not_and, Bool.not_eq_true]

/-- A chain that a line is evaluated to goes back to a chain of the line or of what it refers to, and has the known
terms that the results of its operands leave.  So at most its first operand is known unless one of these results is a
chain of the same precedence that brings a known term along. -/
theorem knownTerms_of_evaluate {workspace : Workspace} (reachable : Reachable workspace) {text : String}
    {line : Line} (accepted : Line.read workspace text = .ok line) {precedence : Precedence}
    {operands : List Expression} {operators : List Operator}
    (evaluated : line.expression.evaluate workspace = .ok (.chain precedence operands operators)) :
    ∃ depth active terms joints results,
      Relation.ReflTransGen (Refers workspace) ([], line.expression) (active, .chain precedence terms joints) ∧
        List.Forall₂ (fun term result => within workspace depth active term = .ok result) terms results ∧
        operands.map isQuantity = foldedTerms precedence results ∧
        (LeadsWithKnown operands ↔ LeavesOneKnown precedence results) ∧
        ((∀ result, result ∈ results → result.isChainOf precedence = false) → LeadsWithKnown operands) := by
  have stores := reachable.stores regular_kept
  have isChain : (Expression.chain precedence operands operators).isChainOf precedence = true := decide_eq_true rfl
  obtain ⟨depth, active, terms, joints, results, refers, each, regular, known⟩ :=
    Evaluation.exists_chain_of_within stores (Line.regular_of_read accepted) evaluated isChain
  rw [Expression.knownTerms_chain] at known
  have leads : LeadsWithKnown operands ↔ LeavesOneKnown precedence results := by
    rw [leadsWithKnown_iff, known, Evaluation.leavesOneKnown_iff regular]
  exact ⟨depth, active, terms, joints, results, refers, each, known, leads, fun flat =>
    leads.mpr (Evaluation.leavesOneKnown_of_flat flat)⟩

/-- A session whose last result is a sum with a known term. -/
def onePlusX : Workspace :=
  (enter noFiles (start .standard) "1 + x").workspace

def plusTwo : Line :=
  { targets := [], expression := .chain .sum [.output 1, .quantity (.ofNumber (.exact 2))] [.add],
    displayUnit := none }

/-- Two is folded in front of what the last result brings along. -/
def twoOneX : List Expression :=
  [.quantity (.ofNumber (.exact 2)), .quantity (.ofNumber (.exact 1)), .var "x"]

private theorem reachable_onePlusX : Reachable onePlusX :=
  .enter (.start _) noFiles _

private theorem read_plusTwo : Line.read onePlusX "+ 2" = .ok plusTwo := by
  rfl

private theorem evaluate_plusTwo : plusTwo.expression.evaluate onePlusX = .ok (.chain .sum twoOneX [.add, .add]) := by
  with_unfolding_all rfl

private theorem not_leadsWithKnown_twoOneX : ¬LeadsWithKnown twoOneX := by
  intro leads
  have second := leads (.quantity (.ofNumber (.exact 1))) (List.mem_cons_self)
  cases second

/-- A sum that goes on from a result has two known terms, although the same sum on one line has one. -/
theorem continuedSum_twoKnown :
    Reachable onePlusX ∧ Line.read onePlusX "+ 2" = .ok plusTwo ∧
      plusTwo.expression.evaluate onePlusX = .ok (.chain .sum twoOneX [.add, .add]) ∧ ¬LeadsWithKnown twoOneX ∧
      ∃ line, Line.read onePlusX "(1 + x) + 2" = .ok line ∧
        line.expression.evaluate onePlusX =
          .ok (.chain .sum [.quantity (.ofNumber (.exact 3)), .var "x"] [.add]) :=
  ⟨reachable_onePlusX, read_plusTwo, evaluate_plusTwo, not_leadsWithKnown_twoOneX, _, by rfl,
    by with_unfolding_all rfl⟩

theorem knownTerms_of_evaluate_continued :
    Reachable onePlusX ∧ Line.read onePlusX "+ 2" = .ok plusTwo ∧
      plusTwo.expression.evaluate onePlusX = .ok (.chain .sum twoOneX [.add, .add]) ∧
      ∃ depth active terms joints results,
        Relation.ReflTransGen (Refers onePlusX) ([], plusTwo.expression) (active, .chain .sum terms joints) ∧
          List.Forall₂ (fun term result => within onePlusX depth active term = .ok result) terms results ∧
          [true, true, false] = foldedTerms .sum results ∧ ¬LeavesOneKnown .sum results := by
  obtain ⟨depth, active, terms, joints, results, refers, each, known, leads, _⟩ :=
    knownTerms_of_evaluate reachable_onePlusX read_plusTwo evaluate_plusTwo
  exact ⟨reachable_onePlusX, read_plusTwo, evaluate_plusTwo, depth, active, terms, joints, results, refers, each,
    known, fun one => not_leadsWithKnown_twoOneX (leads.mpr one)⟩

end QuantityCalculator.Session
