import QuantityCalculator.Proofs.Line.Acceptance
import QuantityCalculator.Session.Basic

/-!
Lines take effect as a whole.

A line that fails leaves the workspace as it was, wherever it fails.  A line with an expression that does not
fail stores its result, binds the variables that are written on it, and changes nothing else.
-/

namespace QuantityCalculator

namespace Bindings

variable {name : String} {bindings : Bindings}

/-! ### Binding several variables -/

private theorem find?_bindAll_of_ne {definitions : List (String × Expression)}
    (others : ∀ definition, definition ∈ definitions → name ≠ definition.1) :
    (bindings.bindAll definitions).find? name = bindings.find? name := by
  induction definitions generalizing bindings with
  | nil => rfl
  | cons definition rest ih =>
      change (bindAll (bind definition.1 definition.2 bindings) rest).find? name = _
      rw [ih fun later member => others later (List.mem_cons_of_mem _ member),
        find?_bind_of_ne _ _ _ _ (others definition List.mem_cons_self)]

private theorem find?_bindAll_of_mem {names : List String} (member : name ∈ names) (expression : Expression) :
    (bindings.bindAll (names.map fun target => (target, expression))).find? name = some expression := by
  induction names generalizing bindings with
  | nil => cases member
  | cons first rest ih =>
      change (bindAll (bind first expression bindings) _).find? name = _
      -- a variable may be written several times on a line
      by_cases later : name ∈ rest
      · exact ih later
      · have isFirst := (List.mem_cons.mp member).resolve_right later
        have others : ∀ definition, definition ∈ rest.map (fun target => (target, expression)) →
            name ≠ definition.1 := by
          intro definition inRest same
          obtain ⟨target, inNames, isTarget⟩ := List.mem_map.mp inRest
          rw [same, ← isTarget] at later
          exact later inNames
        rw [find?_bindAll_of_ne others, isFirst, find?_bind_self]

private theorem mem_of_mem_bind {expression : Expression} {binding : String × Expression}
    (member : binding ∈ bind name expression bindings) :
    binding = (name, expression) ∨ binding ∈ bindings := by
  induction bindings with
  | nil => exact Or.inl (List.mem_singleton.mp member)
  | cons first rest ih =>
      unfold bind at member
      split at member
      · rcases List.mem_cons.mp member with isNew | inRest
        · exact Or.inl isNew
        · exact Or.inr (List.mem_cons_of_mem _ inRest)
      · split at member
        · exact List.mem_cons.mp member
        · rcases List.mem_cons.mp member with isFirst | later
          · exact Or.inr (isFirst ▸ List.mem_cons_self)
          · exact (ih later).imp_right (List.mem_cons_of_mem _)

theorem mem_of_mem_bindAll {definitions : List (String × Expression)} {binding : String × Expression}
    (member : binding ∈ bindings.bindAll definitions) : binding ∈ definitions ∨ binding ∈ bindings := by
  induction definitions generalizing bindings with
  | nil => exact Or.inr member
  | cons definition rest ih =>
      rcases ih member with inRest | inBound
      · exact Or.inl (List.mem_cons_of_mem _ inRest)
      · rcases mem_of_mem_bind inBound with isNew | before
        · exact Or.inl (isNew ▸ List.mem_cons_self)
        · exact Or.inr before

end Bindings

namespace Session

/-! ### What lines and commands do -/

inductive ExpressionEffect (workspace : Workspace) (text : List Char) : Outcome → Prop where
  | failed (lines : List String) (failure : Failure) :
      ExpressionEffect workspace text (.failed workspace lines failure)
  | stored {line : Line} {result : Expression} (shown : String) (lines : List String)
      (accepted : Line.read workspace (String.ofList text) = .ok line)
      (evaluated : line.expression.evaluate workspace = .ok result) :
      ExpressionEffect workspace text
        (.done (store workspace line.targets result)
          { lines := lines ++ [resultText (workspace.outputs.length + 1) result shown], exit := false })

theorem runExpression_effect (workspace : Workspace) (text : List Char) :
    ExpressionEffect workspace text (runExpression workspace text) := by
  unfold runExpression
  cases accepted : Line.read workspace (String.ofList text) with
  | error cause => exact .failed _ _
  | ok line =>
      dsimp only
      unfold evaluateLine
      cases evaluated : line.expression.evaluate workspace with
      | error cause => exact .failed _ _
      | ok result =>
          simp only [bind, Except.bind]
          cases display workspace.settings result line.displayUnit with
          | error cause => exact .failed _ _
          | ok shown => exact .stored shown _ accepted evaluated

inductive CommandEffect (files : Files) (runScript : Workspace → String → Workspace × Reply)
    (workspace : Workspace) : Command → Outcome → Prop where
  | failed (command : Command) (lines : List String) (failure : Failure) :
      CommandEffect files runScript workspace command (.failed workspace lines failure)
  | answered (command : Command) (reply : Reply) :
      CommandEffect files runScript workspace command (.done workspace reply)
  | switched (command : Command) (settings : Settings) (reply : Reply) :
      CommandEffect files runScript workspace command (.done { workspace with settings } reply)
  | loaded (command : Command) (constants : List (String × Quantity)) (reply : Reply) :
      CommandEffect files runScript workspace command
        (.done { workspace with
          bindings := workspace.bindings.bindAll
            (constants.map fun constant => (constant.1, .quantity constant.2)) } reply)
  | reset (reply : Reply) :
      CommandEffect files runScript workspace .reset
        (.done { workspace with outputs := [], bindings := initialBindings } reply)
  | cleared (reply : Reply) :
      CommandEffect files runScript workspace .clear (.done { workspace with outputs := [] } reply)
  | script {path content : String} (found : files.read path = .text content) :
      CommandEffect files runScript workspace (.source (some path))
        (.done (runScript workspace content).1 (runScript workspace content).2)

theorem carryOut_effect (files : Files) (runScript : Workspace → String → Workspace × Reply)
    (workspace : Workspace) (command : Command) :
    CommandEffect files runScript workspace command (carryOut files runScript workspace command) := by
  cases command with
  | load sets =>
      change CommandEffect _ _ _ _ (load workspace sets)
      unfold load
      split
      · split
        · exact .loaded _ _ _
        · exact .failed _ _ _
        · exact .answered _ _
      · exact .answered _ _
  | vars =>
      change CommandEffect _ _ _ _ (showVariables workspace)
      unfold showVariables
      split
      · exact .answered _ _
      · exact .failed _ _ _
  | toggle feature =>
      change CommandEffect _ _ _ _ (toggle workspace feature)
      unfold toggle
      dsimp only
      split
      · exact .switched _ _ _
      · exact .switched _ _ _
      · exact .switched _ _ _
      · exact .answered _ _
  | source path =>
      cases path with
      | none => exact .answered _ _
      | some path =>
          simp only [carryOut]
          cases found : files.read path with
          | text content => exact .script found
          | missing => exact .answered _ _
          | unreadable => exact .answered _ _
  | reset => exact .reset _
  | clear => exact .cleared _
  | help topic => exact .answered _ _
  | exit => exact .answered _ _
  | unknown word => exact .answered _ _

inductive LineEffect (files : Files) (runScript : Workspace → String → Workspace × Reply)
    (workspace : Workspace) (line : List Char) : Outcome → Prop where
  | nothing : LineEffect files runScript workspace line (.done workspace .silent)
  | command {outcome : Outcome}
      (effect : CommandEffect files runScript workspace (Command.read (Text.trim line)) outcome) :
      LineEffect files runScript workspace line outcome
  | expression {outcome : Outcome} (effect : ExpressionEffect workspace (Text.trim line) outcome) :
      LineEffect files runScript workspace line outcome

theorem enterWith_effect (files : Files) (runScript : Workspace → String → Workspace × Reply)
    (workspace : Workspace) (line : List Char) :
    LineEffect files runScript workspace line (enterWith files runScript workspace line) := by
  unfold enterWith
  split
  · exact .nothing
  · exact .nothing
  · rename_i isCommand
    rw [← isCommand]
    exact .command (carryOut_effect files runScript workspace _)
  · exact .expression (runExpression_effect workspace _)

theorem enterNested_effect (files : Files) (depth : Nat) (workspace : Workspace) (line : List Char) :
    ∃ runScript, LineEffect files runScript workspace line (enterNested files depth workspace line) := by
  cases depth with
  | zero => exact ⟨_, enterWith_effect files _ workspace line⟩
  | succ depth => exact ⟨_, enterWith_effect files _ workspace line⟩

/-! ### Atomicity -/

private theorem workspace_of_failure {files : Files} {runScript : Workspace → String → Workspace × Reply}
    {workspace : Workspace} {line : List Char} {outcome : Outcome}
    (effect : LineEffect files runScript workspace line outcome) (fails : outcome.failure.isSome = true) :
    outcome.workspace = workspace := by
  cases effect with
  | nothing => rfl
  | command commandEffect =>
      generalize Command.read (Text.trim line) = command at commandEffect
      cases commandEffect with
      | failed _ _ _ => rfl
      | answered _ _ => rfl
      | _ => cases fails
  | expression expressionEffect =>
      cases expressionEffect with
      | failed _ _ => rfl
      | stored _ _ _ _ => cases fails

/-- A line with an expression starts with no mark of a comment or a command. -/
def IsExpression (line : List Char) : Prop :=
  ∃ first rest, Text.trim line = first :: rest ∧ first ≠ '#' ∧ first ≠ '!'

theorem enterNested_of_isExpression {line : List Char} (isExpression : IsExpression line) (files : Files)
    (depth : Nat) (workspace : Workspace) :
    enterNested files depth workspace line = runExpression workspace (Text.trim line) := by
  obtain ⟨first, rest, trimmed, noComment, noCommand⟩ := isExpression
  have each : ∀ runScript, enterWith files runScript workspace line =
      runExpression workspace (Text.trim line) := by
    intro runScript
    unfold enterWith
    rw [trimmed]
    split
    · rename_i empty
      cases empty
    · rename_i isComment
      exact absurd (List.cons.inj isComment).1 noComment
    · rename_i isCommand
      exact absurd (List.cons.inj isCommand).1 noCommand
    · rfl
  cases depth with
  | zero => exact each _
  | succ depth => exact each _

private theorem exists_resultText (index : Nat) (result : Expression) (shown : String) :
    ∃ text, resultText index result shown = "[" ++ Nat.repr index ++ "] " ++ text := by
  unfold resultText
  dsimp only
  split
  · rename_i kind _
    refine ⟨shown ++ (" (" ++ kind ++ ")"), ?_⟩
    simp only [String.append_assoc]
  · exact ⟨shown, rfl⟩

/-- A line that fails changes nothing.  A line with an expression that does not fail adds one result, answers
with the index of it, and binds the variables that are written on it. -/
theorem enter_atomic (files : Files) (workspace : Workspace) (line : String) :
    ((enter files workspace line).failure.isSome = true →
        (enter files workspace line).workspace = workspace) ∧
      (IsExpression line.toList → (enter files workspace line).failure = none →
        ∃ tokens targets unit result text,
          Token.scan workspace.outputs.length (String.ofList (Text.trim line.toList)) = .ok tokens ∧
            Line.Written workspace tokens targets unit ∧
            (enter files workspace line).workspace.outputs = workspace.outputs ++ [result] ∧
            (enter files workspace line).reply.lines.getLast? =
              some ("[" ++ Nat.repr (enter files workspace line).workspace.outputs.length ++ "] " ++ text) ∧
            (∀ name, name ∈ targets →
              (enter files workspace line).workspace.bindings.find? name = some result) ∧
            (∀ name, name ∉ targets →
              (enter files workspace line).workspace.bindings.find? name = workspace.bindings.find? name) ∧
            (enter files workspace line).workspace.settings = workspace.settings) := by
  constructor
  · intro fails
    obtain ⟨runScript, effect⟩ := enterNested_effect files files.nesting workspace line.toList
    exact workspace_of_failure effect fails
  · intro isExpression succeeds
    have isRun : enter files workspace line = runExpression workspace (Text.trim line.toList) :=
      enterNested_of_isExpression isExpression files files.nesting workspace
    rw [isRun] at succeeds ⊢
    have effect := runExpression_effect workspace (Text.trim line.toList)
    generalize runExpression workspace (Text.trim line.toList) = outcome at succeeds effect ⊢
    cases effect with
    | failed _ _ => cases succeeds
    | @stored line result shown lines accepted _ =>
        obtain ⟨tokens, scanned, read⟩ := Line.exists_scan accepted
        obtain ⟨formula, derived, _⟩ := Line.exists_derives read
        obtain ⟨text, isText⟩ := exists_resultText (workspace.outputs.length + 1) result shown
        refine ⟨tokens, line.targets, line.displayUnit, result, text, scanned, Line.written_of_derives derived,
          rfl, ?_, ?_, ?_, rfl⟩
        · change (lines ++ [_]).getLast? = some ("[" ++ Nat.repr (workspace.outputs ++ [result]).length ++ _ ++ _)
          rw [List.getLast?_concat, List.length_append, isText]
          rfl
        · exact fun name member => Bindings.find?_bindAll_of_mem member result
        · intro name absent
          apply Bindings.find?_bindAll_of_ne
          intro definition member same
          obtain ⟨target, inTargets, isTarget⟩ := List.mem_map.mp member
          rw [same, ← isTarget] at absent
          exact absent inTargets

def noFiles : Files :=
  { read := fun _ => .missing, nesting := 0 }

theorem enter_atomic_assigned :
    (enter noFiles Workspace.empty "a := (x").workspace = Workspace.empty ∧
      ∃ tokens targets unit result text,
        Token.scan 0 "a := x" = .ok tokens ∧ Line.Written Workspace.empty tokens targets unit ∧
          (enter noFiles Workspace.empty "a := x").workspace.outputs = [result] ∧
          (enter noFiles Workspace.empty "a := x").reply.lines.getLast? =
            some ("[" ++ Nat.repr (enter noFiles Workspace.empty "a := x").workspace.outputs.length ++ "] " ++
              text) ∧
          (∀ name, name ∈ targets →
            (enter noFiles Workspace.empty "a := x").workspace.bindings.find? name = some result) ∧
          (∀ name, name ∉ targets →
            (enter noFiles Workspace.empty "a := x").workspace.bindings.find? name = none) ∧
          (enter noFiles Workspace.empty "a := x").workspace.settings = Settings.standard :=
  ⟨(enter_atomic noFiles Workspace.empty "a := (x").1 rfl,
    (enter_atomic noFiles Workspace.empty "a := x").2 ⟨'a', _, rfl, by decide, by decide⟩ rfl⟩

end Session

end QuantityCalculator
