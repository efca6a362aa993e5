import QuantityCalculator.CommandLine

/-!
The program: reads arguments, scripts and input lines, and prints the answers.
-/

namespace QuantityCalculator.Main

def readFile (path : String) : IO FileState := do
  try
    return .text (← IO.FS.readFile path)
  catch
    | .noFileOrDirectory .. => return .missing
    | _ => return .unreadable

/-- Reads the script at a path and all scripts that it may run. -/
partial def collect (known : List (String × FileState)) (path : String) :
    IO (List (String × FileState)) := do
  if (known.lookup path).isSome then return known
  let state ← readFile path
  let mut found := (path, state) :: known
  if let .text content := state then
    for line in Text.lines content.toList do
      if let some inner := Command.scriptOf? line then
        found ← collect found inner
  return found

def filesOf (paths : List String) : IO Files := do
  let mut known := []
  for path in paths do
    known ← collect known path
  let table := known
  return { read := fun path => (table.lookup path).getD .missing, nesting := table.length }

def printAll (lines : List String) : IO PUnit := do
  for line in lines do
    IO.println line
  (← IO.getStdout).flush

/-- Answers input lines until the input ends or the session is left, and gives the exit code. -/
partial def loop (interactive : Bool) (workspace : Workspace) : IO UInt32 := do
  if interactive then
    IO.print (Session.prompt workspace)
    (← IO.getStdout).flush
  let text ← (← IO.getStdin).getLine
  if text.isEmpty then
    printAll [""]
    return 0
  else
    let line := ((Text.lines text.toList).head?).getD []
    let files ← filesOf ((Text.applyBackspaces line).bind Command.scriptOf?).toList
    match CommandLine.runInputLine files workspace line with
    | none => return UInt32.ofNat CommandLine.brokenInputCode
    | some (after, reply) =>
      printAll reply.lines
      if reply.exit then return 0 else loop interactive after

def run (arguments : List String) : IO UInt32 := do
  let paths :=
    match CommandLine.Request.ofArguments arguments with
    | .run options => options.script.toList
    | _ => []
  let files ← filesOf paths
  let opening := CommandLine.Opening.ofArguments files arguments
  printAll opening.lines
  match opening.next with
  | .error code => return UInt32.ofNat code
  | .ok workspace => loop (← (← IO.getStdin).isTty) workspace

end QuantityCalculator.Main

def main (arguments : List String) : IO UInt32 :=
  QuantityCalculator.Main.run arguments
