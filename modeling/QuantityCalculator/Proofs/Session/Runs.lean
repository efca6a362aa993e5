import QuantityCalculator.Session.Basic

/-!
Runs of scripts.

What is run for a script is a list: each of its lines with the outcome, followed by what that line runs, and so on
until one fails or ends the session.  The answer of the script and the workspace after it can be read off the list.
-/

namespace QuantityCalculator.Session

/-! ### Runs -/

/-- A line of a script, with the lines behind it.  Lines are counted from one. -/
structure ScriptLine where
  number : Nat
  text : List Char
  behind : List (List Char)

structure Run where
  /-- The lines that run the scripts around it, that of the outermost script first. -/
  around : List ScriptLine
  line : ScriptLine
  outcome : Outcome

def Run.within (outer : ScriptLine) (run : Run) : Run :=
  { run with around := outer :: run.around }

/-- What is run for the lines of a script, in order, where `runsOf` gives what is run for one line besides itself.
`number` counts the lines before them. -/
def runsOfScript (enterLine : Workspace → List Char → Outcome) (runsOf : Workspace → List Char → List Run)
    (number : Nat) (workspace : Workspace) : List (List Char) → List Run
  | [] => []
  | text :: behind =>
    let outcome := enterLine workspace text
    let line : ScriptLine := { number := number + 1, text, behind }
    { around := [], line, outcome } :: (runsOf workspace text).map (Run.within line) ++
      if outcome.failure.isSome || outcome.reply.exit then []
      else runsOfScript enterLine runsOf (number + 1) outcome.workspace behind

/-- What is run for a line besides itself: the lines of the script that it runs, and so on to a depth. -/
def runsOfLine (files : Files) : Nat → Workspace → List Char → List Run
  | 0, _, _ => []
  | depth + 1, workspace, line =>
    match (Command.scriptOf? line).map files.read with
    | some (.text content) =>
      runsOfScript (enterNested files depth) (runsOfLine files depth) 0 workspace (Text.lines content.toList)
    | _ => []

def runsOfContent (files : Files) (workspace : Workspace) (content : String) : List Run :=
  runsOfScript (enterNested files files.nesting) (runsOfLine files files.nesting) 0 workspace
    (Text.lines content.toList)

def linesRun (files : Files) (depth : Nat) (workspace : Workspace) (line : List Char) : List (List Char) :=
  line :: (runsOfLine files depth workspace line).map (·.line.text)

/-! ### Answers of scripts -/

variable {enterLine : Workspace → List Char → Outcome} {runsOf : Workspace → List Char → List Run}
  {number : Nat} {answered : List String} {workspace : Workspace}

def Run.answer (run : Run) : List String :=
  run.outcome.reply.lines ++ (run.outcome.failure.map (·.messageOnLine run.line.number)).toList

def Run.leaves (run : Run) : Bool :=
  run.outcome.failure.isNone && run.outcome.reply.exit

def ownRuns (runs : List Run) : List Run :=
  runs.filter (·.around.isEmpty)

private theorem ownRuns_within (line : ScriptLine) (runs : List Run) : ownRuns (runs.map (Run.within line)) = [] := by
  refine List.filter_eq_nil_iff.mpr fun run member => ?_
  obtain ⟨inner, _, rfl⟩ := List.mem_map.mp member
  exact Bool.false_ne_true

theorem ownRuns_cons (enterLine : Workspace → List Char → Outcome) (runsOf : Workspace → List Char → List Run)
    (number : Nat) (workspace : Workspace) (text : List Char) (behind : List (List Char)) :
    ∃ run, run.outcome = enterLine workspace text ∧ run.line.number = number + 1 ∧
      ownRuns (runsOfScript enterLine runsOf number workspace (text :: behind)) =
        run :: if run.outcome.failure.isSome || run.outcome.reply.exit then []
          else ownRuns (runsOfScript enterLine runsOf (number + 1) run.outcome.workspace behind) := by
  refine ⟨{ around := [], line := { number := number + 1, text, behind }, outcome := enterLine workspace text },
    rfl, rfl, ?_⟩
  rw [runsOfScript, ownRuns, List.cons_append, List.filter_cons_of_pos rfl, List.filter_append]
  change _ :: (ownRuns (List.map _ _) ++ _) = _
  rw [ownRuns_within, List.nil_append]
  split <;> rfl

/-- A script answers what its own lines answer, and leaves the workspace that the last of them leaves. -/
theorem enterLines_eq (lines : List (List Char)) :
    enterLines enterLine number answered workspace lines =
      (((ownRuns (runsOfScript enterLine runsOf number workspace lines)).getLast?.map
          (·.outcome.workspace)).getD workspace,
        { lines := answered ++ (ownRuns (runsOfScript enterLine runsOf number workspace lines)).flatMap Run.answer
          exit := (ownRuns (runsOfScript enterLine runsOf number workspace lines)).any Run.leaves }) := by
  induction lines generalizing number answered workspace with
  | nil => simp [enterLines, runsOfScript, ownRuns]
  | cons text behind ih =>
      obtain ⟨run, isOutcome, isNumber, isOwn⟩ := ownRuns_cons enterLine runsOf number workspace text behind
      rw [isOwn, enterLines, ← isOutcome, ← isNumber]
      cases failed : run.outcome.failure with
      | some failure => simp [Run.answer, Run.leaves, failed]
      | none =>
          cases left : run.outcome.reply.exit with
          | true => simp [Run.answer, Run.leaves, failed, left]
          | false =>
              simp only [Option.isSome_none, Bool.or_self, Bool.false_eq_true, if_false]
              rw [ih, isNumber, List.getLast?_cons]
              simp [Run.answer, Run.leaves, failed, left]

end QuantityCalculator.Session
