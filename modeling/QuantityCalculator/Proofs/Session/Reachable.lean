import QuantityCalculator.Proofs.Evaluation.Flat
import QuantityCalculator.Proofs.Formula.Regular
import QuantityCalculator.Proofs.Session.Reached

/-!
What holds of all that a session stores.

A session stores constants and results of evaluations.  So what holds of quantities, and of each result if it
holds of all that was stored before, holds of everything that is ever stored.  In particular all trees are
regular, and the chains that are joined fit together.
-/

namespace QuantityCalculator

open Expression (Regular joinAll?)

theorem Line.regular_of_read {workspace : Workspace} {text : String} {line : Line}
    (accepted : read workspace text = .ok line) : line.expression.Regular := by
  obtain ⟨formula, isNormal, _⟩ := exists_formula accepted
  rw [isNormal]
  exact formula.normalize_regular

namespace Session

/-! ### Sessions -/

inductive Reachable : Workspace → Prop where
  | start (settings : Settings) : Reachable (start settings)
  | enter {workspace : Workspace} (reachable : Reachable workspace) (files : Files) (line : String) :
      Reachable (enter files workspace line).workspace

/-- What holds of constants, and of a result if it holds of all that is stored. -/
structure Kept (holds : Expression → Prop) : Prop where
  quantity : ∀ value, holds (.quantity value)
  result : ∀ workspace text line result, Workspace.Stores holds workspace →
    Line.read workspace text = .ok line → line.expression.evaluate workspace = .ok result → holds result

variable {holds : Expression → Prop}

theorem Kept.start (kept : Kept holds) (settings : Settings) : (start settings).Stores holds :=
  ⟨fun _ member => (List.not_mem_nil member).elim, fun _ member => initialBindings_hold kept.quantity member⟩

theorem store_stores {workspace : Workspace} (stores : workspace.Stores holds) (targets : List String)
    {result : Expression} (resultHolds : holds result) : (store workspace targets result).Stores holds := by
  constructor
  · intro stored member
    rcases List.mem_append.mp member with before | last
    · exact stores.outputs stored before
    · exact List.mem_singleton.mp last ▸ resultHolds
  · intro binding member
    rcases Bindings.mem_of_mem_bindAll member with isNew | before
    · obtain ⟨target, _, rfl⟩ := List.mem_map.mp isNew
      exact resultHolds
    · exact stores.bindings binding before

variable {files : Files} {runScript : Workspace → String → Workspace × Reply} {workspace : Workspace}

theorem Kept.command (kept : Kept holds) (stores : workspace.Stores holds) {command : Command}
    {outcome : Outcome} (scripts : ∀ content, (runScript workspace content).1.Stores holds)
    (effect : CommandEffect files runScript workspace command outcome) : outcome.workspace.Stores holds := by
  cases effect with
  | failed _ _ _ => exact stores
  | answered _ _ => exact stores
  | switched _ _ _ => exact ⟨stores.outputs, stores.bindings⟩
  | loaded _ _ _ =>
      refine ⟨stores.outputs, fun binding member => ?_⟩
      rcases Bindings.mem_of_mem_bindAll member with isConstant | before
      · exact constants_hold kept.quantity isConstant
      · exact stores.bindings binding before
  | reset _ =>
      have anew := kept.start workspace.settings
      exact ⟨anew.outputs, anew.bindings⟩
  | cleared _ => exact ⟨fun _ member => (List.not_mem_nil member).elim, stores.bindings⟩
  | script _ => exact scripts _

theorem Kept.enterWith (kept : Kept holds) (stores : workspace.Stores holds)
    (scripts : ∀ content, (runScript workspace content).1.Stores holds) (line : List Char) :
    (enterWith files runScript workspace line).workspace.Stores holds := by
  have effect := enterWith_effect files runScript workspace line
  generalize Session.enterWith files runScript workspace line = outcome at effect ⊢
  cases effect with
  | nothing => exact stores
  | command commandEffect => exact kept.command stores scripts commandEffect
  | expression expressionEffect =>
      cases expressionEffect with
      | failed _ _ => exact stores
      | stored _ _ accepted evaluated =>
          exact store_stores stores _ (kept.result _ _ _ _ stores accepted evaluated)

theorem enterLines_stores {enterLine : Workspace → List Char → Outcome}
    (each : ∀ workspace line, Workspace.Stores holds workspace → (enterLine workspace line).workspace.Stores holds)
    {number : Nat} {answered : List String} (stores : workspace.Stores holds) (lines : List (List Char)) :
    (enterLines enterLine number answered workspace lines).1.Stores holds := by
  induction lines generalizing number answered workspace with
  | nil => exact stores
  | cons line rest ih =>
      have after := each workspace line stores
      simp only [enterLines]
      split
      · exact after
      · split
        · exact after
        · exact ih after

theorem Kept.enterNested (kept : Kept holds) (files : Files) (depth : Nat) (stores : workspace.Stores holds)
    (line : List Char) : (enterNested files depth workspace line).workspace.Stores holds := by
  induction depth generalizing workspace line with
  | zero => exact kept.enterWith stores (fun _ => stores) line
  | succ depth ih =>
      exact kept.enterWith stores
        (fun content => enterLines_stores (fun _ line inner => ih inner line) stores _) line

theorem Reachable.stores (reachable : Reachable workspace) (kept : Kept holds) : workspace.Stores holds := by
  induction reachable with
  | start settings => exact kept.start settings
  | enter _ files line ih => exact kept.enterNested files files.nesting ih line.toList

/-! ### Regular trees -/

theorem regular_kept : Kept Regular :=
  ⟨fun value => .quantity value trivial, fun _ _ _ _ stores accepted evaluated =>
    Evaluation.within_regular stores (Line.regular_of_read accepted) evaluated⟩

open Evaluation (Avoids)
open EvaluationError (brokenChain_isStructural)

private theorem display_unbroken (settings : Settings) (result : Expression) (unit : Option DisplayUnit) :
    Avoids .brokenChain (display settings result unit) := by
  unfold display
  split
  · cases unit with
    | none => exact .ok _
    | some unit =>
        simp only [Quantity.textIn]
        split
        · exact (Evaluation.divide_avoids brokenChain_isStructural _ _).bind fun _ => .ok _
        · exact .error brokenChain_isStructural id
  · exact .ok _

private theorem evaluate_unbroken (stores : workspace.Stores Regular) {expression : Expression}
    (regular : expression.Regular) : Avoids .brokenChain (expression.evaluate workspace) :=
  Evaluation.within_regular_unbroken stores _ [] regular

private theorem runExpression_unbroken (stores : workspace.Stores Regular) (text : List Char) :
    (runExpression workspace text).failure ≠ some (.evaluation .brokenChain) := by
  unfold runExpression
  cases accepted : Line.read workspace (String.ofList text) with
  | error cause => simp [Outcome.failed]
  | ok line =>
      have unbroken : Avoids .brokenChain (evaluateLine workspace line) :=
        (evaluate_unbroken stores (Line.regular_of_read accepted)).bind fun result =>
          (display_unbroken _ result _).bind fun _ => .ok _
      dsimp only
      cases evaluated : evaluateLine workspace line with
      | error cause =>
          rw [evaluated] at unbroken
          intro fails
          cases fails
          exact unbroken rfl
      | ok shown => simp [Outcome.done]

private theorem showVariables_unbroken (stores : workspace.Stores Regular) :
    (showVariables workspace).failure ≠ some (.evaluation .brokenChain) := by
  have unbroken : Avoids .brokenChain (workspace.bindings.mapM (variableText workspace)) :=
    .mapM fun binding member =>
      (evaluate_unbroken stores (stores.bindings binding member)).bind fun result =>
        (display_unbroken _ result _).bind fun _ => .ok _
  unfold showVariables
  cases shown : workspace.bindings.mapM (variableText workspace) with
  | ok lines => simp [Outcome.done]
  | error cause =>
      rw [shown] at unbroken
      intro fails
      cases fails
      exact unbroken rfl

/-- No line fails for a chain that does not fit together. -/
theorem enterWith_unbroken (stores : workspace.Stores Regular) (line : List Char) :
    (enterWith files runScript workspace line).failure ≠ some (.evaluation .brokenChain) := by
  have commands : ∀ command,
      (carryOut files runScript workspace command).failure ≠ some (.evaluation .brokenChain) := by
    intro command
    cases command with
    | vars => exact showVariables_unbroken stores
    | load sets =>
        simp only [carryOut, load]
        split
        · split <;> simp [Outcome.done, Outcome.failed]
        · simp [Outcome.done]
    | toggle feature =>
        simp only [carryOut, toggle]
        split <;> exact fun fails => by cases fails
    | source path =>
        cases path with
        | none => exact fun fails => by cases fails
        | some path =>
            simp only [carryOut]
            split <;> exact fun fails => by cases fails
    | _ => exact fun fails => by cases fails
  unfold Session.enterWith
  split
  · exact fun fails => by cases fails
  · exact fun fails => by cases fails
  · exact commands _
  · exact runExpression_unbroken stores _

private theorem enterNested_unbroken (files : Files) (depth : Nat) (stores : workspace.Stores Regular)
    (line : List Char) : (enterNested files depth workspace line).failure ≠ some (.evaluation .brokenChain) := by
  cases depth with
  | zero => exact enterWith_unbroken stores line
  | succ depth => exact enterWith_unbroken stores line

/-- A session in which a variable is bound to a sum. -/
def partlyKnown : Workspace :=
  (enter noFiles (start .standard) "y := 2 - a").workspace

end Session

end QuantityCalculator
