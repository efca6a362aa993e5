import QuantityCalculator.Proofs.Evaluation.Exact
import QuantityCalculator.Proofs.Evaluation.Textbook
import QuantityCalculator.Proofs.Formula.Division

/-!
Divisions by zero in a line.

A line whose variables and results are known is evaluated to a quantity or fails.  It fails if it is
divided by zero with the groups of its products opened, which is not the same as dividing by zero in a group.
-/

namespace QuantityCalculator

namespace Evaluation

variable {evaluate : Expression → Except EvaluationError Expression}

/-! ### Nothing is left over -/

def Concludes (evaluate : Expression → Except EvaluationError Expression) (expression : Expression) : Prop :=
  ∀ result, evaluate expression = .ok result → ∃ quantity, result = .quantity quantity

private theorem foldChain_concludes {operators : List Operator} {operands : List Expression} {result : Expression}
    (concludes : ∀ operand, operand ∈ operands → Concludes evaluate operand)
    (folded : foldChain evaluate operators operands = .ok result) : ∃ quantity, result = .quantity quantity := by
  obtain ⟨⟨known, residual⟩, all, ended⟩ := foldChain_eq_ok folded
  have nothing : residual = [] := by
    apply List.eq_nil_iff_forall_not_mem.mpr
    intro step member
    rcases mem_residual_of_foldlM all member with before | ⟨origin, inSteps, _, evaluated, open_⟩
    · exact List.not_mem_nil before
    · obtain ⟨value, isQuantity⟩ := concludes origin.2 (List.of_mem_zip inSteps).2 step.2 evaluated
      rw [isQuantity] at open_
      cases open_
  subst nothing
  cases known with
  | none => cases ended
  | some value =>
      cases ended
      exact ⟨value, rfl⟩

private theorem foldTower_concludes {operands : List Expression} {exponent : Quantity} {power : Option Quantity}
    (concludes : ∀ operand, operand ∈ operands → Concludes evaluate operand)
    (folded : foldTower evaluate exponent operands = .ok power) : ∃ quantity, power = some quantity := by
  induction operands generalizing exponent with
  | nil =>
      cases folded
      exact ⟨exponent, rfl⟩
  | cons operand earlier ih =>
      obtain ⟨result, evaluated, powered⟩ := bind_eq_ok_iff.mp folded
      obtain ⟨base, rfl⟩ := concludes operand List.mem_cons_self result evaluated
      obtain ⟨next, _, others⟩ := bind_eq_ok_iff.mp powered
      exact ih (fun other member => concludes other (List.mem_cons_of_mem _ member)) others

private theorem evaluateTower_concludes {operands : List Expression} {result : Expression} (nonempty : operands ≠ [])
    (concludes : ∀ operand, operand ∈ operands → Concludes evaluate operand)
    (made : evaluateTower evaluate operands = .ok result) : ∃ quantity, result = .quantity quantity := by
  unfold evaluateTower at made
  split at made
  · rename_i reversed
    exact absurd (List.reverse_eq_nil_iff.mp reversed) nonempty
  · rename_i last earlier reversed
    have member : ∀ operand, operand ∈ last :: earlier → operand ∈ operands := by
      intro operand inReverse
      rw [← reversed] at inReverse
      exact List.mem_reverse.mp inReverse
    obtain ⟨inner, evaluated, powered⟩ := bind_eq_ok_iff.mp made
    obtain ⟨exponent, rfl⟩ := concludes last (member last List.mem_cons_self) inner evaluated
    obtain ⟨power, folded, isResult⟩ := bind_eq_ok_iff.mp powered
    obtain ⟨value, rfl⟩ := foldTower_concludes
      (fun operand later => concludes operand (member operand (List.mem_cons_of_mem _ later))) folded
    cases isResult
    exact ⟨value, rfl⟩

/-- Variables and results have exact values, and towers have operands. -/
def Resolved (workspace : Workspace) : Expression → Prop
  | .tower operands => operands ≠ []
  | reference => ∃ amount, reference.amount? workspace.valuation = some amount

private theorem reference_concludes {workspace : Workspace} {expression : Expression} {amount : Amount} (depth : Nat)
    (outcome : settledAmount? (expression.evaluate workspace) = some amount) :
    Concludes (within workspace depth []) expression := by
  intro result evaluated
  have refines := within_refines_evaluate workspace depth expression
  have settled : within workspace depth [] expression ≠ .error .endlessReference := by
    rw [evaluated]
    exact fun endless => by cases endless
  have same := refines.eq_of_ne settled
  rw [settledAmount?_eq_some.mp outcome, evaluated] at same
  exact ⟨amount.quantity, (Except.ok.inj same).symm⟩

/-- If variables and results are known, then nothing is left over by an evaluation. -/
theorem within_concludes {workspace : Workspace} {expression : Expression}
    (resolved : expression.Built (Resolved workspace)) (depth : Nat) :
    Concludes (within workspace depth []) expression := by
  induction resolved generalizing depth with
  | var name isKnown => exact isKnown.elim fun amount => reference_concludes depth
  | output index isKnown => exact isKnown.elim fun amount => reference_concludes depth
  | quantity value =>
      intro result evaluated
      cases depth with
      | zero => cases evaluated
      | succ depth => exact ⟨value, (Except.ok.inj evaluated).symm⟩
  | chain noPower single count _ parts ih =>
      intro result evaluated
      cases depth with
      | zero => cases evaluated
      | succ depth => exact foldChain_concludes (fun operand member => ih operand member depth) evaluated
  | tower nonempty parts ih =>
      intro result evaluated
      cases depth with
      | zero => cases evaluated
      | succ depth =>
          exact evaluateTower_concludes nonempty (fun operand member => ih trivial operand member depth) evaluated
  | @negation operand _ part ih =>
      intro result evaluated
      cases depth with
      | zero => cases evaluated
      | succ depth =>
          obtain ⟨inner, operandEvaluated, rfl⟩ := map_eq_ok_iff.mp evaluated
          obtain ⟨value, rfl⟩ := ih depth inner operandEvaluated
          exact ⟨-value, rfl⟩

end Evaluation

namespace Line

open Evaluation (Resolved StaysExact)

variable {workspace : Workspace} {tokens : List Token} {line : Line} {targets : List String}
  {formula : Formula} {unit : Option DisplayUnit}

/-- A line with a value makes it with the groups of its products opened, too. -/
theorem opened?_of_evaluate_ok (resolved : formula.References (Resolved workspace))
    (exact : StaysExact workspace [] formula.normalize) {result : Expression}
    (evaluated : formula.normalize.evaluate workspace = .ok result) :
    ∃ amount, formula.opened? workspace.valuation = some (Fraction.of amount) ∧
      result = .quantity amount.quantity := by
  obtain ⟨value, rfl⟩ := Evaluation.within_concludes
    (Formula.normalize_formed (fun _ => trivial) resolved fun _ several _ => List.ne_nil_of_length_pos (Nat.zero_lt_of_lt several)) _ result evaluated
  obtain ⟨amount, makes, rfl⟩ :=
    Evaluation.amount_of_quantity (Formula.normalize_wellFormed formula) exact evaluated
  rw [Formula.amount?_normalize] at makes
  obtain ⟨fraction, opened, settled⟩ := Option.bind_eq_some_iff.mp makes
  rw [Fraction.settle?_eq_some.mp settled] at opened
  exact ⟨amount, opened, rfl⟩

/-- A line with known variables and results fails exactly if it is not in range, or if it does not make an amount
with the groups of its products opened. -/
theorem evaluate_error_iff (accepted : ofTokens workspace tokens = .ok line)
    (written : Derives workspace tokens targets formula unit)
    (resolved : formula.References (Resolved workspace))
    (exact : StaysExact workspace [] line.expression) :
    (∃ cause, line.expression.evaluate workspace = .error cause) ↔
      ¬line.expression.InRange workspace.valuation ∨
        ∀ amount, formula.opened? workspace.valuation ≠ some (Fraction.of amount) := by
  rw [expression_of_derives accepted written] at exact ⊢
  have settles : ∀ amount, formula.opened? workspace.valuation = some (Fraction.of amount) →
      (formula.normalize.evaluate workspace = .ok (.quantity amount.quantity) ↔
        formula.normalize.InRange workspace.valuation) := by
    intro amount opened
    have means := Formula.amount?_normalize workspace.valuation formula
    rw [opened] at means
    exact Evaluation.evaluate_eq_amount_iff (Formula.normalize_wellFormed formula) means
  constructor
  · rintro ⟨cause, failed⟩
    by_cases inRange : formula.normalize.InRange workspace.valuation
    · refine Or.inr fun amount opened => ?_
      have evaluated := (settles amount opened).mpr inRange
      rw [failed] at evaluated
      cases evaluated
    · exact Or.inl inRange
  · intro fails
    cases evaluated : formula.normalize.evaluate workspace with
    | error cause => exact ⟨cause, rfl⟩
    | ok result =>
        obtain ⟨amount, opened, rfl⟩ := opened?_of_evaluate_ok resolved exact evaluated
        rcases fails with outside | unsettled
        · exact absurd ((settles amount opened).mp evaluated) outside
        · exact absurd opened (unsettled amount)

/-- The formula `1 / (2 / 0)`. -/
def overInfinite : Formula :=
  .binary .divide (.quantity (.ofNumber (.exact 1)))
    (.group (.binary .divide (.quantity (.ofNumber (.exact 2))) (.quantity (.ofNumber (.exact 0)))))

def overInfiniteTokens : List Token :=
  [.quantity (.ofNumber (.exact 1)), .operator .divide, .leftParen, .quantity (.ofNumber (.exact 2)),
    .operator .divide, .quantity (.ofNumber (.exact 0)), .rightParen]

theorem evaluate_error_iff_overInfinite :
    ¬∃ cause, overInfinite.normalize.evaluate .empty = .error cause := by
  have accepted : ofTokens .empty overInfiniteTokens =
      .ok { targets := [], expression := overInfinite.normalize, displayUnit := none } := rfl
  have continues : Continues .empty overInfiniteTokens overInfiniteTokens :=
    .whole fun operator starts => by cases starts
  have derives : Derives .empty overInfiniteTokens [] overInfinite none :=
    ⟨_, _, rfl, continues, Formula.derives_of_ofTokens rfl⟩
  have powerFree : Evaluation.PowerFree overInfinite.normalize := by
    change Evaluation.PowerFree (.chain .product [.quantity (.ofNumber (.exact 1)),
      .quantity (.ofNumber (.exact 2)), .quantity (.ofNumber (.exact 0))] [.divide, .multiply])
    refine .chain (by decide) fun operand member => ?_
    simp only [List.mem_cons, List.not_mem_nil, or_false] at member
    rcases member with rfl | rfl | rfl <;> exact .quantity ⟨_, Dimension.one⟩
  have exact : StaysExact .empty [] overInfinite.normalize := by
    refine Evaluation.staysExact_of_powerFree ⟨fun name bound found => ?_, fun index stored found => ?_⟩
      powerFree
    · cases found
    · cases (Workspace.output?_eq_some found).2.2
  have opened : overInfinite.opened? (Workspace.valuation .empty) =
      some (Fraction.of ⟨0, Dimension.one⟩) := by
    decide +kernel
  have inRange : overInfinite.normalize.InRange (Workspace.valuation .empty) := by
    decide +kernel
  intro failed
  rcases (evaluate_error_iff accepted derives ⟨trivial, trivial, trivial⟩ exact).mp failed with
    outside | unsettled
  · exact outside inRange
  · exact unsettled _ opened

/-- A line can divide by zero as written and still have a value. -/
theorem overInfinite_hidesZero :
    ofTokens .empty overInfiniteTokens =
        .ok { targets := [], expression := overInfinite.normalize, displayUnit := none } ∧
      Derives .empty overInfiniteTokens [] overInfinite none ∧
      overInfinite.References (Resolved .empty) ∧
      overInfinite.DividesByZero (Workspace.valuation .empty) ∧
      overInfinite.normalize.evaluate .empty = .ok (.quantity (.ofNumber (.exact 0))) := by
  have continues : Continues .empty overInfiniteTokens overInfiniteTokens :=
    .whole fun operator starts => by cases starts
  have value : Evaluation.settledAmount? (overInfinite.normalize.evaluate .empty) =
      some ⟨0, Dimension.one⟩ := by
    decide +kernel
  refine ⟨rfl, ⟨_, _, rfl, continues, Formula.derives_of_ofTokens rfl⟩, ⟨trivial, trivial, trivial⟩, ?_,
    Evaluation.settledAmount?_eq_some.mp value⟩
  exact Or.inr (Or.inl (Or.inr (Or.inr ⟨rfl, ⟨0, Dimension.one⟩, rfl, rfl⟩)))

/-- A line in which nothing is divided by a product fails if it divides by zero as written. -/
theorem evaluate_error_of_dividesByZero (accepted : ofTokens workspace tokens = .ok line)
    (written : Derives workspace tokens targets formula unit)
    (resolved : formula.References (Resolved workspace))
    (exact : StaysExact workspace [] line.expression) (plainly : formula.DividesPlainly)
    (divides : formula.DividesByZero workspace.valuation) :
    ∃ cause, line.expression.evaluate workspace = .error cause := by
  rw [expression_of_derives accepted written] at exact ⊢
  cases evaluated : formula.normalize.evaluate workspace with
  | error cause => exact ⟨cause, rfl⟩
  | ok result =>
      obtain ⟨amount, opened, _⟩ := opened?_of_evaluate_ok resolved exact evaluated
      cases Formula.settle?_of_dividesByZero plainly divides opened

end Line

end QuantityCalculator
