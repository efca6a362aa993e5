import QuantityCalculator.Proofs.Evaluation.Termination
import QuantityCalculator.Proofs.Formula.Meaning
import QuantityCalculator.Proofs.Session.Atomicity
import QuantityCalculator.Proofs.Session.Runs
import QuantityCalculator.Proofs.Token.Scanner

/-!
Sessions in which evaluations come to an end.

A line can refer to the results that there are, and its own result comes behind them.  So results refer to
earlier results, until the results alone are cleared and the variables that refer to them are kept.
-/

namespace QuantityCalculator

open Expression (RefersBelow)

/-! ### References in lines -/

private theorem Formula.references_of_derives {holds : Expression → Prop} {level : Level} {tokens : List Token}
    {formula : Formula} (derived : Derives level tokens formula) (vars : ∀ name, holds (.var name))
    (outputs : ∀ index, Token.output index ∈ tokens → holds (.output index)) : formula.References holds := by
  induction derived with
  | quantity value => trivial
  | var name => exact vars name
  | output index => exact outputs index List.mem_cons_self
  | minus _ ih => exact ih fun index member => outputs index (List.mem_cons_of_mem _ member)
  | group _ ih =>
      exact ih fun index member => outputs index (List.mem_cons_of_mem _ (List.mem_append_left _ member))
  | power _ ih => exact ih outputs
  | product _ ih => exact ih outputs
  | sum _ ih => exact ih outputs
  | raise _ _ ihLeft ihRight =>
      exact ⟨ihLeft fun index member => outputs index (List.mem_append_left _ member),
        ihRight fun index member => outputs index (List.mem_append_right _ (List.mem_cons_of_mem _ member))⟩
  | multiply _ _ _ ihLeft ihRight =>
      exact ⟨ihLeft fun index member => outputs index (List.mem_append_left _ member),
        ihRight fun index member => outputs index (List.mem_append_right _ (List.mem_cons_of_mem _ member))⟩
  | add _ _ _ ihLeft ihRight =>
      exact ⟨ihLeft fun index member => outputs index (List.mem_append_left _ member),
        ihRight fun index member => outputs index (List.mem_append_right _ (List.mem_cons_of_mem _ member))⟩

/-- A line stands for a formula that refers to results that there are. -/
theorem Line.exists_formula {workspace : Workspace} {text : String} {line : Line}
    (accepted : read workspace text = .ok line) :
    ∃ formula : Formula, line.expression = formula.normalize ∧
      formula.References (RefersBelow (workspace.outputs.length + 1)) := by
  obtain ⟨tokens, scanned, isLine⟩ := exists_scan accepted
  obtain ⟨formula, ⟨body, continued, split, continues, derived⟩, isNormal⟩ := exists_derives isLine
  obtain ⟨lexemes, _, within⟩ := Token.scan_eq_ok scanned
  have inBody : ∀ index, Token.output index ∈ body → 0 < index ∧ index ≤ workspace.outputs.length := by
    intro index member
    refine Token.bounds_of_scanWithin within index ?_
    rw [split]
    exact List.mem_append_right _ (List.mem_append_left _ member)
  -- a line that continues from the last result refers to it
  have inContinued : ∀ index, Token.output index ∈ continued →
      0 < index ∧ index ≤ workspace.outputs.length := by
    cases continues with
    | whole _ => exact inBody
    | fromLast _ _ nonempty =>
        intro index member
        rcases List.mem_cons.mp member with isLast | later
        · cases isLast
          exact ⟨List.length_pos_iff.mpr nonempty, Nat.le_refl _⟩
        · exact inBody index later
  refine ⟨formula, isNormal, Formula.references_of_derives derived (fun _ => trivial) fun index member => ?_⟩
  have bounds := inContinued index member
  exact ⟨bounds.1, Nat.lt_succ_of_le bounds.2⟩

/-- A line refers to results that there are. -/
theorem Line.built_of_read {workspace : Workspace} {text : String} {line : Line}
    (accepted : read workspace text = .ok line) :
    line.expression.Built (RefersBelow (workspace.outputs.length + 1)) := by
  obtain ⟨formula, isNormal, references⟩ := exists_formula accepted
  rw [isNormal]
  exact Formula.normalize_formed (fun _ => trivial) references fun _ _ _ => trivial

namespace Session

/-! ### Steps -/

theorem store_grounded {workspace : Workspace} (grounded : workspace.Grounded) (targets : List String)
    {result : Expression} (built : result.Built (RefersBelow (workspace.outputs.length + 1))) :
    (store workspace targets result).Grounded := by
  have length : (store workspace targets result).outputs.length = workspace.outputs.length + 1 :=
    List.length_append
  constructor
  · intro index stored found
    unfold Workspace.output? at found
    split at found
    · cases found
    · rename_i positive
      change (workspace.outputs ++ [result])[index - 1]? = some stored at found
      by_cases before : index - 1 < workspace.outputs.length
      · rw [List.getElem?_append_left before] at found
        refine grounded.outputs index stored ?_
        rw [Workspace.output?, if_neg positive, found]
      · obtain ⟨inside, _⟩ := List.getElem?_eq_some_iff.mp found
        rw [List.length_append, List.length_singleton] at inside
        have isLast : index - 1 = workspace.outputs.length := by omega
        rw [isLast, List.getElem?_concat_length] at found
        rw [← Option.some.inj found]
        exact built.mono (by omega)
  · intro binding member
    rw [length]
    rcases Bindings.mem_of_mem_bindAll member with isNew | before
    · obtain ⟨target, _, rfl⟩ := List.mem_map.mp isNew
      exact built.mono (Nat.le_succ _)
    · exact (grounded.bindings binding before).mono (Nat.le_succ _)

private theorem grounded_of_expressionEffect {workspace : Workspace} (grounded : workspace.Grounded)
    {text : List Char} {outcome : Outcome} (effect : ExpressionEffect workspace text outcome) :
    outcome.workspace.Grounded := by
  cases effect with
  | failed _ _ => exact grounded
  | stored _ _ accepted evaluated =>
      exact store_grounded grounded _
        (Evaluation.evaluate_built grounded (Line.built_of_read accepted) evaluated)

/-- What holds of quantities holds of constants. -/
theorem constants_hold {holds : Expression → Prop} (quantity : ∀ value, holds (.quantity value))
    {constants : List (String × Quantity)} {binding : String × Expression}
    (member : binding ∈ constants.map fun constant => (constant.1, Expression.quantity constant.2)) :
    holds binding.2 := by
  obtain ⟨constant, _, rfl⟩ := List.mem_map.mp member
  exact quantity _

theorem initialBindings_hold {holds : Expression → Prop} (quantity : ∀ value, holds (.quantity value))
    {binding : String × Expression} (member : binding ∈ initialBindings) : holds binding.2 := by
  rcases Bindings.mem_of_mem_bindAll member with isConstant | before
  · exact constants_hold quantity isConstant
  · cases before

theorem start_grounded (settings : Settings) : (start settings).Grounded := by
  constructor
  · intro index stored found
    have inside := (Workspace.output?_eq_some found).2.2
    cases inside
  · exact fun binding member => initialBindings_hold (fun value => .quantity value trivial) member

private theorem grounded_of_commandEffect {files : Files} {runScript : Workspace → String → Workspace × Reply}
    {workspace : Workspace} (grounded : workspace.Grounded) {command : Command} {outcome : Outcome}
    (noClear : command ≠ .clear)
    (scripts : ∀ path content, command = .source (some path) → files.read path = .text content →
      (runScript workspace content).1.Grounded)
    (effect : CommandEffect files runScript workspace command outcome) : outcome.workspace.Grounded := by
  cases effect with
  | failed _ _ _ => exact grounded
  | answered _ _ => exact grounded
  | switched _ _ _ => exact ⟨grounded.outputs, grounded.bindings⟩
  | loaded _ _ _ =>
      refine ⟨grounded.outputs, fun binding member => ?_⟩
      rcases Bindings.mem_of_mem_bindAll member with isConstant | before
      · exact constants_hold (fun value => .quantity value trivial) isConstant
      · exact grounded.bindings binding before
  | reset _ =>
      have anew := start_grounded workspace.settings
      exact ⟨anew.outputs, anew.bindings⟩
  | cleared _ => exact absurd rfl noClear
  | @script path content found => exact scripts path content rfl found

/-! ### Lines and scripts -/

def Clears (line : List Char) : Prop :=
  Command.read (Text.trim line) = .clear

theorem enterLines_grounded {enterLine : Workspace → List Char → Outcome}
    {runsOf : Workspace → List Char → List Run}
    (each : ∀ workspace line, Workspace.Grounded workspace → ¬Clears line →
      (∀ run, run ∈ runsOf workspace line → ¬Clears run.line.text) → (enterLine workspace line).workspace.Grounded)
    {number : Nat} {answered : List String} {workspace : Workspace} {lines : List (List Char)}
    (grounded : workspace.Grounded)
    (noClear : ∀ run, run ∈ runsOfScript enterLine runsOf number workspace lines → ¬Clears run.line.text) :
    (enterLines enterLine number answered workspace lines).1.Grounded := by
  induction lines generalizing number answered workspace with
  | nil => exact grounded
  | cons text behind ih =>
      simp only [runsOfScript, List.forall_mem_append, List.forall_mem_cons, List.forall_mem_map] at noClear
      obtain ⟨⟨noClearItself, noClearInside⟩, later⟩ := noClear
      have after := each workspace text grounded noClearItself noClearInside
      simp only [enterLines]
      split
      · exact after
      · rename_i succeeds
        split
        · exact after
        · rename_i stays
          rw [succeeds, Option.isSome_none, Bool.false_or, if_neg stays] at later
          exact ih after later

theorem enterWith_grounded {files : Files} {runScript : Workspace → String → Workspace × Reply}
    {workspace : Workspace} {line : List Char} (grounded : workspace.Grounded) (noClear : ¬Clears line)
    (scripts : ∀ path content, Command.scriptOf? line = some path → files.read path = .text content →
      (runScript workspace content).1.Grounded) :
    (enterWith files runScript workspace line).workspace.Grounded := by
  have effect := enterWith_effect files runScript workspace line
  generalize enterWith files runScript workspace line = outcome at effect ⊢
  cases effect with
  | nothing => exact grounded
  | command commandEffect =>
      refine grounded_of_commandEffect grounded noClear (fun path content isSource found => ?_) commandEffect
      refine scripts path content ?_ found
      simp only [Command.scriptOf?, isSource]
  | expression expressionEffect => exact grounded_of_expressionEffect grounded expressionEffect

theorem enterNested_grounded {files : Files} {depth : Nat} {workspace : Workspace} {line : List Char}
    (grounded : workspace.Grounded) (noClear : ¬Clears line)
    (inside : ∀ run, run ∈ runsOfLine files depth workspace line → ¬Clears run.line.text) :
    (enterNested files depth workspace line).workspace.Grounded := by
  induction depth generalizing workspace line with
  | zero => exact enterWith_grounded grounded noClear fun _ _ _ _ => grounded
  | succ depth ih =>
      refine enterWith_grounded grounded noClear fun path content isScript found => ?_
      simp only [runsOfLine, isScript, Option.map_some, found] at inside
      exact enterLines_grounded (fun _ _ => ih) grounded inside

/-! ### Sessions -/

/-- The workspaces of a session in which the results have not been cleared without the variables, neither by
the lines entered nor by those of a script. -/
inductive Reached : Workspace → Prop where
  | start (settings : Settings) : Reached (start settings)
  | enter {workspace : Workspace} (reached : Reached workspace) (files : Files) (line : String)
      (noClear : ∀ ran, ran ∈ linesRun files files.nesting workspace line.toList → ¬Clears ran) :
      Reached (enter files workspace line).workspace

theorem Reached.grounded {workspace : Workspace} (reached : Reached workspace) : workspace.Grounded := by
  induction reached with
  | start settings => exact start_grounded settings
  | enter _ files line noClear ih =>
      obtain ⟨itself, inside⟩ := List.forall_mem_cons.mp noClear
      exact enterNested_grounded ih itself fun run member => inside _ (List.mem_map_of_mem member)

/-- Results refer to earlier results and variables to results that there are, so whatever line is read, its
evaluation comes to an end. -/
theorem terminates_of_reached {workspace : Workspace} (reached : Reached workspace) :
    (∀ index stored, workspace.output? index = some stored →
        ∀ earlier, stored.Mentions earlier → 0 < earlier ∧ earlier < index) ∧
      (∀ name bound, workspace.bindings.find? name = some bound →
        ∀ index, bound.Mentions index → ∃ stored, workspace.output? index = some stored) ∧
      ∀ text line, Line.read workspace text = .ok line →
        Evaluation.Terminates workspace line.expression ∧
          line.expression.evaluate workspace ≠ .error .endlessReference := by
  have grounded := reached.grounded
  refine ⟨?_, ?_, ?_⟩
  · exact fun index stored found earlier mentions => (grounded.outputs index stored found).bounds mentions
  · intro name bound found index mentions
    have built := grounded.bindings _ (Bindings.mem_of_find? found)
    exact Workspace.exists_output (built.bounds mentions)
  · intro text line accepted
    have terminates := Evaluation.terminates_of_grounded grounded (Line.built_of_read accepted)
    exact ⟨terminates, Evaluation.evaluate_settled terminates⟩

/-- A session whose variables `a` and `b` refer to one another. -/
def circular : Workspace :=
  (enter noFiles (enter noFiles (start .standard) "a := b ^ 2").workspace "b := a ^ 2").workspace

theorem terminates_of_reached_circular :
    circular.bindings.find? "a" = some (.tower [.var "b", .quantity (.ofNumber (.exact 2))]) ∧
      circular.bindings.find? "b" = some (.tower [.var "a", .quantity (.ofNumber (.exact 2))]) ∧
        ∃ line, Line.read circular "a - [2]" = .ok line ∧ Evaluation.Terminates circular line.expression ∧
          line.expression.evaluate circular ≠ .error .endlessReference := by
  have reached : Reached circular := by
    refine .enter (.enter (.start _) noFiles _ ?_) noFiles _ ?_
    · intro ran member
      rw [List.mem_singleton.mp member]
      exact fun clears => by cases clears
    · intro ran member
      rw [List.mem_singleton.mp member]
      exact fun clears => by cases clears
  have accepted : Line.read circular "a - [2]" =
      .ok { targets := [], expression := .chain .sum [.var "a", .output 2] [.subtract], displayUnit := none } := by
    rfl
  exact ⟨by rfl, by rfl, _, accepted, (terminates_of_reached reached).2.2 _ _ accepted⟩

end Session

end QuantityCalculator
