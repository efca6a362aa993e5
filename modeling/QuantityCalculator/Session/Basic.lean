import QuantityCalculator.EvaluationError.Message
import QuantityCalculator.Evaluation
import QuantityCalculator.Expression.Text
import QuantityCalculator.Line
import QuantityCalculator.Session.Command
import QuantityCalculator.Session.Help

/-!
Sessions: running lines, commands and scripts against a workspace.

A line either takes effect as a whole or fails and leaves the workspace as it was.  A script stops at the
first line that fails; the failure is part of its reply, with the number of the line.
-/

namespace QuantityCalculator

structure Reply where
  lines : List String
  /-- Whether the session is to be left. -/
  exit : Bool
  deriving DecidableEq, Repr

namespace Reply

def silent : Reply := { lines := [], exit := false }

def ofText (text : String) : Reply := { lines := [text], exit := false }

end Reply

inductive Failure where
  | reading (error : ReadError)
  | evaluation (error : EvaluationError)

namespace Failure

def message : Failure → String
  | .reading error => "Syntax error: " ++ error.message
  | .evaluation error => "Error: " ++ error.message

def messageOnLine (number : Nat) : Failure → String
  | .reading error => "Syntax error on line " ++ Nat.repr number ++ ": " ++ error.message
  | .evaluation error => "Error on line " ++ Nat.repr number ++ ": " ++ error.message

end Failure

/-- What became of a line: the workspace after it, what was answered, and whether it failed. -/
structure Outcome where
  workspace : Workspace
  reply : Reply
  failure : Option Failure

namespace Outcome

def done (workspace : Workspace) (reply : Reply) : Outcome :=
  { workspace, reply, failure := none }

def failed (workspace : Workspace) (lines : List String) (failure : Failure) : Outcome :=
  { workspace, reply := { lines, exit := false }, failure := some failure }

def shown (outcome : Outcome) : Reply :=
  match outcome.failure with
  | none => outcome.reply
  | some failure => { outcome.reply with lines := outcome.reply.lines ++ [failure.message] }

end Outcome

/-! ### Files -/

inductive FileState where
  | text (content : String)
  | missing
  | unreadable

structure Files where
  read : String → FileState
  /-- How deep scripts may run one another.  The number of files is enough unless a script runs itself. -/
  nesting : Nat

namespace Session

private def bound (constants : List (String × Quantity)) : List (String × Expression) :=
  constants.map fun constant => (constant.1, .quantity constant.2)

def initialBindings : Bindings :=
  Bindings.bindAll [] (bound Constants.mathematical)

def start (settings : Settings) : Workspace :=
  { outputs := [], bindings := initialBindings, settings }

/-- The prompt, as wide as the number of results. -/
def prompt (workspace : Workspace) : String :=
  String.ofList (List.replicate (Text.digitCount workspace.outputs.length) ' ') ++ " > "

/-! ### Expressions -/

def display (settings : Settings) (result : Expression) (unit : Option DisplayUnit) :
    Except EvaluationError String :=
  match result.value? with
  | some value => value.textIn settings.fractions unit
  | none => .ok (result.text settings.fractions)

def evaluateLine (workspace : Workspace) (line : Line) : Except EvaluationError (Expression × String) := do
  let result ← line.expression.evaluate workspace
  let shown ← display workspace.settings result line.displayUnit
  return (result, shown)

def resultText (index : Nat) (result : Expression) (shown : String) : String :=
  let text := "[" ++ Nat.repr index ++ "] " ++ shown
  match result.value?.bind Quantity.kind? with
  | some kind => text ++ " (" ++ kind ++ ")"
  | none => text

def store (workspace : Workspace) (targets : List String) (result : Expression) : Workspace :=
  { workspace with
    outputs := workspace.outputs ++ [result]
    bindings := workspace.bindings.bindAll (targets.map fun target => (target, result)) }

def runExpression (workspace : Workspace) (text : List Char) : Outcome :=
  match Line.read workspace (String.ofList text) with
  | .error error => Outcome.failed workspace [] (.reading error)
  | .ok line =>
    let index := workspace.outputs.length + 1
    let echo :=
      if workspace.settings.debug then
        ["(" ++ Nat.repr index ++ ") " ++ line.expression.text workspace.settings.fractions]
      else []
    match evaluateLine workspace line with
    | .error error => Outcome.failed workspace echo (.evaluation error)
    | .ok (result, shown) =>
      Outcome.done (store workspace line.targets result)
        { lines := echo ++ [resultText index result shown], exit := false }

/-! ### Commands -/

def load (workspace : Workspace) (sets : List String) : Outcome :=
  match sets with
  | [set] =>
    match Constants.ofSet? set with
    | some (.ok constants) =>
      Outcome.done
        { workspace with bindings := workspace.bindings.bindAll (bound constants) } Reply.silent
    | some (.error error) => Outcome.failed workspace [] (.reading error)
    | none => Outcome.done workspace (Reply.ofText Help.load)
  | _ => Outcome.done workspace (Reply.ofText Help.load)

def variableText (workspace : Workspace) (binding : String × Expression) : Except EvaluationError String := do
  let result ← binding.2.evaluate workspace
  let shown ← display workspace.settings result none
  return binding.1 ++ " = " ++ shown

def showVariables (workspace : Workspace) : Outcome :=
  match workspace.bindings.mapM (variableText workspace) with
  | .ok lines => Outcome.done workspace { lines, exit := false }
  | .error error => Outcome.failed workspace [] (.evaluation error)

private def toggled (workspace : Workspace) (feature : String) (settings : Settings) (isOn : Bool) :
    Outcome :=
  Outcome.done { workspace with settings }
    (Reply.ofText ("Toggled " ++ feature ++ (if isOn then " on." else " off.")))

def toggle (workspace : Workspace) (feature : Option String) : Outcome :=
  let settings := workspace.settings
  match feature with
  | some "debug" => toggled workspace "debug" { settings with debug := !settings.debug } !settings.debug
  | some "frac" =>
    toggled workspace "frac" { settings with fractions := !settings.fractions } !settings.fractions
  | some "cont" =>
    toggled workspace "cont" { settings with continuation := !settings.continuation }
      !settings.continuation
  | _ => Outcome.done workspace (Reply.ofText (Help.on (some "toggle")))

/-- Runs a command, where `runScript` runs the text of a script. -/
def carryOut (files : Files) (runScript : Workspace → String → Workspace × Reply)
    (workspace : Workspace) : Command → Outcome
  | .help topic => Outcome.done workspace (Reply.ofText (Help.on topic))
  | .load sets => load workspace sets
  | .vars => showVariables workspace
  | .reset =>
    Outcome.done { workspace with outputs := [], bindings := initialBindings }
      (Reply.ofText "Variables and history cleared.")
  | .clear => Outcome.done { workspace with outputs := [] } (Reply.ofText "History cleared.")
  | .toggle feature => toggle workspace feature
  | .source none => Outcome.done workspace (Reply.ofText Help.source)
  | .source (some path) =>
    match files.read path with
    | .text content =>
      let (after, reply) := runScript workspace content
      Outcome.done after reply
    | .missing => Outcome.done workspace (Reply.ofText "File does not exist.")
    | .unreadable => Outcome.done workspace (Reply.ofText "Failed to read file.")
  | .exit => Outcome.done workspace { lines := [], exit := true }
  | .unknown word =>
    Outcome.done workspace (Reply.ofText ("Unknown command " ++ word ++ ". Type !help for help."))

/-! ### Lines and scripts -/

/-- Runs a line.  Blank lines and comments do nothing. -/
def enterWith (files : Files) (runScript : Workspace → String → Workspace × Reply)
    (workspace : Workspace) (line : List Char) : Outcome :=
  match Text.trim line with
  | [] => Outcome.done workspace Reply.silent
  | '#' :: _ => Outcome.done workspace Reply.silent
  | '!' :: rest => carryOut files runScript workspace (Command.read ('!' :: rest))
  | text => runExpression workspace text

/-- Runs lines until one fails or leaves the session.  `number` counts the lines before them and
`answered` is the answer so far. -/
def enterLines (enterLine : Workspace → List Char → Outcome) (number : Nat) (answered : List String)
    (workspace : Workspace) : List (List Char) → Workspace × Reply
  | [] => (workspace, { lines := answered, exit := false })
  | line :: rest =>
    let outcome := enterLine workspace line
    let lines := answered ++ outcome.reply.lines
    match outcome.failure with
    | some failure =>
      (outcome.workspace, { lines := lines ++ [failure.messageOnLine (number + 1)], exit := false })
    | none =>
      if outcome.reply.exit then (outcome.workspace, { lines, exit := true })
      else enterLines enterLine (number + 1) lines outcome.workspace rest

/-- Runs a line in which scripts may run one another to a depth. -/
def enterNested (files : Files) : Nat → Workspace → List Char → Outcome
  | 0 => enterWith files fun workspace _ =>
    (workspace, Reply.ofText "Scripts are nested too deeply.")
  | depth + 1 => enterWith files fun workspace content =>
    enterLines (enterNested files depth) 0 [] workspace (Text.lines content.toList)

def enter (files : Files) (workspace : Workspace) (line : String) : Outcome :=
  enterNested files files.nesting workspace line.toList

def enterScript (files : Files) (workspace : Workspace) (content : String) : Workspace × Reply :=
  enterLines (enterNested files files.nesting) 0 [] workspace (Text.lines content.toList)

end Session

/-! ### Single lines -/

def evaluateText (text : String) : Except Failure String :=
  match Line.read Workspace.empty text with
  | .error error => .error (.reading error)
  | .ok line =>
    match Session.evaluateLine Workspace.empty line with
    | .error error => .error (.evaluation error)
    | .ok (_, shown) => .ok shown

end QuantityCalculator
