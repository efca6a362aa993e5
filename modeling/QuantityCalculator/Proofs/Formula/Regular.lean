import QuantityCalculator.Proofs.Expression.Flat
import QuantityCalculator.Proofs.Formula.Meaning

/-!
Normal forms as trees.

The normal form of a formula is a regular tree.  The operands that operators of one precedence join from the
left make a chain that fits together, and that chain is the normal form.
-/

namespace QuantityCalculator.Formula

open Expression (joinAll? joinSteps)

theorem normalize_regular (formula : Formula) : formula.normalize.Regular := by
  have references : formula.References Expression.Several :=
    (references_trivial formula).imp (fun _ _ => trivial) fun _ _ => trivial
  exact normalize_formed (fun _ => trivial) references fun _ several _ => several

/-! ### Runs of operators -/

/-- The operands that operators of a precedence join from the left: the first one, and the others with the
operator in front of each. -/
def run (precedence : Precedence) : Formula → Formula × Tail
  | .binary operator left right =>
    if operator.precedence = precedence then
      ((left.run precedence).1, (left.run precedence).2 ++ [(operator, right)])
    else (.binary operator left right, [])
  | other => (other, [])

private theorem joinFromLeft_run (precedence : Precedence) (formula : Formula) :
    joinFromLeft (formula.run precedence).1 (formula.run precedence).2 = formula := by
  induction formula with
  | binary operator left right ihLeft _ =>
      unfold run
      split
      · rw [joinFromLeft, List.foldl_append]
        change Formula.binary operator (joinFromLeft _ _) right = _
        rw [ihLeft]
      · rfl
  | _ => rfl

private theorem run_single (precedence : Precedence) (formula : Formula) :
    ∀ step, step ∈ (formula.run precedence).2 → step.1.precedence = precedence := by
  induction formula with
  | binary operator left right ihLeft _ =>
      intro step member
      unfold run at member
      split at member
      · rename_i isOf
        rcases List.mem_append.mp member with before | last
        · exact ihLeft step before
        · rw [List.mem_singleton.mp last]
          exact isOf
      · cases member
  | _ => exact fun step member => (List.not_mem_nil member).elim

theorem normalize_joinFromLeft {precedence : Precedence} (noPower : precedence ≠ .power) {tail : Tail}
    (single : ∀ step, step ∈ tail → step.1.precedence = precedence) (first : Formula) :
    (joinFromLeft first tail).normalize =
      joinSteps first.normalize (tail.map fun step => (step.1, step.2.normalize)) := by
  induction tail generalizing first with
  | nil => rfl
  | cons step rest ih =>
      have stepNoPower : step.1.precedence ≠ .power := by
        rw [single step List.mem_cons_self]
        exact noPower
      change (joinFromLeft (.binary step.1 first step.2) rest).normalize = _
      rw [ih (fun later member => single later (List.mem_cons_of_mem _ member)), normalize_binary stepNoPower]
      rfl

/-- The operands of a run can be joined all at once, and what they make is the normal form. -/
theorem joinAll?_run {precedence : Precedence} (noPower : precedence ≠ .power) (formula : Formula) :
    joinAll? ((formula.run precedence).1.normalize :: (formula.run precedence).2.map (·.2.normalize))
      ((formula.run precedence).2.map Prod.fst) = some formula.normalize := by
  have single : ∀ operator, operator ∈ (formula.run precedence).2.map Prod.fst →
      operator.precedence = precedence := by
    intro operator member
    obtain ⟨step, inRun, rfl⟩ := List.mem_map.mp member
    exact run_single precedence formula step inRun
  have parts : ∀ operand, operand ∈ (formula.run precedence).2.map (·.2.normalize) → operand.WellFormed := by
    intro operand member
    obtain ⟨step, _, rfl⟩ := List.mem_map.mp member
    exact normalize_wellFormed step.2
  have joined := normalize_joinFromLeft noPower (run_single precedence formula) (formula.run precedence).1
  rw [joinFromLeft_run] at joined
  rw [joined, Expression.joinAll?_eq_some noPower single (by simp) (normalize_wellFormed _) parts, List.zip_map']

end QuantityCalculator.Formula
