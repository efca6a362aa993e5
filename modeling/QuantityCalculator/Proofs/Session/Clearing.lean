import QuantityCalculator.Proofs.Evaluation.Frame
import QuantityCalculator.Proofs.Session.Reachable

/-!
Variables after the results have been cleared.

What is stored refers to results only inside of towers, which are kept as they were written.  So a variable
keeps its value exactly if no tower on the way to it refers to a result.
-/

namespace QuantityCalculator

open Evaluation (AgreesApart Meets)

def Expression.IsOutput : Expression → Prop
  | .output _ => True
  | _ => False

/-- Whatever is no reference to a result, or one to a result that there is. -/
def Workspace.Finds (workspace : Workspace) : Expression → Prop
  | .output index => ∃ stored, workspace.output? index = some stored
  | _ => True

private theorem Line.flat_of_read {workspace : Workspace} {text : String} {line : Line}
    (accepted : read workspace text = .ok line) : line.expression.Flat workspace.Finds := by
  obtain ⟨formula, isNormal, references⟩ := exists_formula accepted
  rw [isNormal]
  have isFlat : formula.normalize.Flat (Expression.RefersBelow (workspace.outputs.length + 1)) :=
    Formula.normalize_formed (fun _ => trivial) references fun _ _ _ => trivial
  refine isFlat.imp fun expression below => ?_
  cases expression with
  | output index => exact Workspace.exists_output below
  | _ => trivial

namespace Session

variable {workspace : Workspace}

private theorem noOutput_kept : Kept (Expression.Flat fun atom => ¬atom.IsOutput) := by
  refine ⟨fun value => .quantity value trivial, fun workspace text line result stores accepted evaluated => ?_⟩
  have found : ∀ expression : Expression, ¬expression.IsOutput → workspace.Finds expression := by
    intro expression noOutput
    cases expression with
    | output index => exact absurd trivial noOutput
    | _ => trivial
  -- a line refers only to results that there are, and those are taken up before anything is stored
  have keeps : Evaluation.Keeps workspace (.flat workspace.Finds) (.flat fun atom => ¬atom.IsOutput) :=
    ⟨fun _ => trivial, id, fun _ _ => Or.inl id, fun _ isFound => Or.inr isFound, fun _ _ => .tower id nofun⟩
  have finds : workspace.Stores (Expression.Flat workspace.Finds) :=
    stores.imp fun _ flat => flat.imp found
  exact Evaluation.within_formed keeps (fun _ _ => finds.bound) (fun _ _ => finds.output)
    (fun _ member => (List.not_mem_nil member).elim) (Line.flat_of_read accepted) evaluated

private theorem enter_clear (files : Files) (workspace : Workspace) :
    (enter files workspace "!clear").workspace = { workspace with outputs := [] } := by
  unfold enter
  cases files.nesting <;> rfl

private theorem agrees_cleared (workspace : Workspace) :
    AgreesApart Expression.IsOutput [] workspace { workspace with outputs := [] } :=
  ⟨fun _ found => found, fun isOther => absurd trivial isOther, fun member => (List.not_mem_nil member).elim⟩

private theorem output?_cleared (workspace : Workspace) (index : Nat) :
    Workspace.output? { workspace with outputs := [] } index = none := by
  unfold Workspace.output?
  split <;> rfl

private theorem noQuantity_cleared (stores : workspace.WellFormed) {expression reference : Expression}
    (wellFormed : expression.WellFormed) (isOutput : reference.IsOutput)
    (meets : Meets workspace [] expression reference) (value : Quantity) :
    expression.evaluate { workspace with outputs := [] } ≠ .ok (.quantity value) := by
  intro evaluated
  obtain ⟨other, isOutputToo, meetsToo⟩ := (agrees_cleared workspace).meets isOutput meets
  have cleared : Workspace.WellFormed { workspace with outputs := [] } := by
    refine ⟨fun index stored found => ?_, stores.bindings⟩
    rw [output?_cleared] at found
    cases found
  obtain ⟨others, depth, quantity, _, found⟩ :=
    Evaluation.quantity_of_meets cleared meetsToo wellFormed evaluated
  cases depth with
  | zero => cases found
  | succ depth =>
      cases other with
      | output index =>
          simp only [Evaluation.within, output?_cleared] at found
          cases found
      | _ => exact isOutputToo

/-- Once the results are cleared, a variable with a value has the same value if its evaluation came by no
reference to a result, and none otherwise.  Such references stand only in towers. -/
theorem evaluate_clear_iff (reachable : Reachable workspace) (files : Files) {name : String}
    {value : Quantity} (evaluated : (Expression.var name).evaluate workspace = .ok (.quantity value)) :
    (∀ target bound index, workspace.bindings.find? target = some bound →
        ¬Expression.Exposes (.output index) bound) ∧
      ((Expression.var name).evaluate (enter files workspace "!clear").workspace = .ok (.quantity value) ↔
        ∀ index, ¬Meets workspace [] (.var name) (.output index)) ∧
      ∀ index, Meets workspace [] (.var name) (.output index) → ∀ other,
        (Expression.var name).evaluate (enter files workspace "!clear").workspace ≠ .ok (.quantity other) := by
  have stores := (reachable.stores regular_kept).wellFormed
  have wellFormed : (Expression.var name).WellFormed := .var name trivial
  have lost : ∀ index, Meets workspace [] (.var name) (.output index) → ∀ other,
      (Expression.var name).evaluate (enter files workspace "!clear").workspace ≠ .ok (.quantity other) := by
    intro index meets other
    rw [enter_clear]
    have isOutput : (Expression.output index).IsOutput := trivial
    exact noQuantity_cleared stores wellFormed isOutput meets other
  refine ⟨?_, ⟨fun same index meets => lost index meets value same, fun noOutput => ?_⟩, lost⟩
  · intro target bound index found exposes
    cases (((reachable.stores noOutput_kept).bound found).exposed exposes) with
    | output _ noOutput => exact noOutput trivial
  · rw [enter_clear]
    have outside : ∀ reference, Expression.IsOutput reference → ¬Meets workspace [] (.var name) reference := by
      intro reference isOutput meets
      cases reference with
      | output index => exact noOutput index meets
      | _ => exact isOutput
    have again := (agrees_cleared workspace).quantity outside evaluated
    exact Evaluation.evaluate_of_quantity again

/-- A session with a result, a variable that an operator joins to it, and a value for what was unbound then. -/
def overResult (operator : String) : Workspace :=
  let first := (enter noFiles (start .standard) "3").workspace
  let second := (enter noFiles first ("a := [1] " ++ operator ++ " y")).workspace
  (enter noFiles second "y := 2").workspace

private theorem overResult_reachable (operator : String) : Reachable (overResult operator) :=
  .enter (.enter (.enter (.start _) noFiles _) noFiles _) noFiles _

/-- A tower refers to the first result until it is evaluated to a value, so it loses the value that it had. -/
theorem clear_loses_tower :
    ¬∀ workspace, Reachable workspace → ∀ files name value,
      (Expression.var name).evaluate workspace = .ok (.quantity value) →
        (Expression.var name).evaluate (enter files workspace "!clear").workspace = .ok (.quantity value) := by
  intro keeps
  have before : Evaluation.settledAmount? ((Expression.var "a").evaluate (overResult "^")) =
      some ⟨9, Dimension.one⟩ := by
    decide +kernel
  have after : (Expression.var "a").evaluate (enter noFiles (overResult "^") "!clear").workspace =
      .ok (.tower [.output 1, .var "y"]) := by
    with_unfolding_all rfl
  have kept := keeps _ (overResult_reachable "^") noFiles "a" _ (Evaluation.settledAmount?_eq_some.mp before)
  rw [after] at kept
  cases kept

/-- The sum has taken up the result when it was stored, the tower has not. -/
theorem evaluate_clear_iff_overResult :
    (∃ value, (Expression.var "a").evaluate (overResult "+") = .ok (.quantity value) ∧
        (Expression.var "a").evaluate (enter noFiles (overResult "+") "!clear").workspace = .ok (.quantity value) ∧
        ∀ index, ¬Meets (overResult "+") [] (.var "a") (.output index)) ∧
      (∃ value, (Expression.var "a").evaluate (overResult "^") = .ok (.quantity value)) ∧
        Meets (overResult "^") [] (.var "a") (.output 1) ∧
        ∀ other, (Expression.var "a").evaluate (enter noFiles (overResult "^") "!clear").workspace ≠
          .ok (.quantity other) := by
  have sum := Evaluation.settledAmount?_eq_some.mp
    (show Evaluation.settledAmount? ((Expression.var "a").evaluate (overResult "+")) =
      some ⟨5, Dimension.one⟩ by decide +kernel)
  have sumCleared := Evaluation.settledAmount?_eq_some.mp
    (show Evaluation.settledAmount?
        ((Expression.var "a").evaluate (enter noFiles (overResult "+") "!clear").workspace) =
      some ⟨5, Dimension.one⟩ by decide +kernel)
  have power := Evaluation.settledAmount?_eq_some.mp
    (show Evaluation.settledAmount? ((Expression.var "a").evaluate (overResult "^")) =
      some ⟨9, Dimension.one⟩ by decide +kernel)
  have meets : Meets (overResult "^") [] (.var "a") (.output 1) := by
    have found : (overResult "^").bindings.find? "a" = some (.tower [.output 1, .var "y"]) := by rfl
    exact ⟨_, .head (.bound List.not_mem_nil found) (.single (.part List.mem_cons_self))⟩
  exact ⟨⟨_, sum, sumCleared,
      (evaluate_clear_iff (overResult_reachable "+") noFiles sum).2.1.mp sumCleared⟩, ⟨_, power⟩, meets,
    (evaluate_clear_iff (overResult_reachable "^") noFiles power).2.2 1 meets⟩

end Session

end QuantityCalculator
