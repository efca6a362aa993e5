import QuantityCalculator.Session.Basic
import QuantityCalculator.Text.Backspace

/-!
The command line: options, the script to start with, and the lines that follow.
-/

namespace QuantityCalculator.CommandLine

def version : String := "0.3.0"

def title : String := "ρhysCalc REPL " ++ version

/-! ### Options -/

structure Options where
  script : Option String
  fractions : Bool
  withoutContinuation : Bool
  quiet : Bool
  deriving DecidableEq, Repr

def Options.none : Options :=
  { script := Option.none, fractions := false, withoutContinuation := false, quiet := false }

def Options.settings (options : Options) : Settings :=
  { Settings.standard with
    fractions := options.fractions
    continuation := !options.withoutContinuation }

inductive Request where
  | run (options : Options)
  | showVersion
  | showUsage
  /-- The arguments are wrong. -/
  | refuse
  deriving DecidableEq, Repr

abbrev Effect := Except Request Options

def setQuiet (options : Options) : Effect :=
  if options.quiet then .error .refuse else .ok { options with quiet := true }

/-- A long option.  An option may not be given twice. -/
def longOption (options : Options) : String → Effect
  | "--frac" => if options.fractions then .error .refuse else .ok { options with fractions := true }
  | "--no-cont" =>
    if options.withoutContinuation then .error .refuse
    else .ok { options with withoutContinuation := true }
  | "--quiet" => setQuiet options
  | "--version" => .error .showVersion
  | "--help" => .error .showUsage
  | _ => .error .refuse

def shortOption (options : Options) : Char → Effect
  | 'q' => setQuiet options
  | 'V' => .error .showVersion
  | 'h' => .error .showUsage
  | _ => .error .refuse

/-- The path of the script.  There is at most one, and it is not empty. -/
def scriptArgument (options : Options) (path : String) : Effect :=
  if path = "" || options.script.isSome then .error .refuse
  else .ok { options with script := some path }

/-- Reads the arguments from the left.  Behind two dashes every argument is a path. -/
def readArguments (options : Options) : List String → Effect
  | [] => .ok options
  | "--" :: paths => paths.foldlM scriptArgument options
  | argument :: rest => do
    let next ←
      match argument.toList with
      | '-' :: '-' :: _ => longOption options argument
      | '-' :: letter :: letters => (letter :: letters).foldlM shortOption options
      | _ => scriptArgument options argument
    readArguments next rest

def Request.ofArguments (arguments : List String) : Request :=
  match readArguments Options.none arguments with
  | .ok options => .run options
  | .error request => request

def usage : List String :=
  ["Usage: physcalc [--frac] [--no-cont] [-q | --quiet] [SCRIPT]"]

/-! ### Running -/

/-- How a run begins: what is printed, and the workspace in which input is read, or the exit code. -/
structure Opening where
  lines : List String
  next : Except Nat Workspace

def openScript (files : Files) (greeting : List String) (workspace : Workspace) (path : String) : Opening :=
  match files.read path with
  | .text content =>
    let (after, reply) := Session.enterScript files workspace content
    { lines := greeting ++ reply.lines, next := if reply.exit then .error 0 else .ok after }
  | _ => { lines := greeting ++ ["File does not exist."], next := .error 1 }

def Opening.ofArguments (files : Files) (arguments : List String) : Opening :=
  match Request.ofArguments arguments with
  | .refuse => { lines := [], next := .error 2 }
  | .showVersion => { lines := ["physcalc " ++ version], next := .error 0 }
  | .showUsage => { lines := usage, next := .error 0 }
  | .run options =>
    let workspace := Session.start options.settings
    let greeting := if options.quiet then [] else [title, "Type !help for help"]
    match options.script with
    | none => { lines := greeting, next := .ok workspace }
    | some path => openScript files greeting workspace path

/-- Runs one input line: the workspace after it, and the answer.  Nothing is run if the backspaces in the
line cannot be applied. -/
def runInputLine (files : Files) (workspace : Workspace) (line : List Char) : Option (Workspace × Reply) :=
  (Text.applyBackspaces line).map fun typed =>
    let outcome := Session.enter files workspace (String.ofList typed)
    (outcome.workspace, outcome.shown)

/-- The exit code of a run that meets an input line whose backspaces cannot be applied. -/
def brokenInputCode : Nat := 101

def runInput (files : Files) (workspace : Workspace) : List (List Char) → List String × Nat
  | [] => ([""], 0)
  | line :: rest =>
    match runInputLine files workspace line with
    | none => ([], brokenInputCode)
    | some (after, reply) =>
      if reply.exit then (reply.lines, 0)
      else
        let (lines, code) := runInput files after rest
        (reply.lines ++ lines, code)

def run (files : Files) (arguments : List String) (input : String) : List String × Nat :=
  let opening := Opening.ofArguments files arguments
  match opening.next with
  | .error code => (opening.lines, code)
  | .ok workspace =>
    let (lines, code) := runInput files workspace (Text.lines input.toList)
    (opening.lines ++ lines, code)

end QuantityCalculator.CommandLine
