import QuantityCalculator.Text.Blank

/-!
Commands of a session: lines that start with an exclamation mark.
-/

namespace QuantityCalculator

inductive Command where
  | help (topic : Option String)
  | load (sets : List String)
  | vars
  | reset
  | clear
  | toggle (feature : Option String)
  /-- Run the script at a path; without a path, explain how. -/
  | source (path : Option String)
  | exit
  | unknown (word : String)
  deriving DecidableEq, Repr

namespace Command

def ofWords (word : String) (arguments : List String) : Command :=
  match word with
  | "!help" => .help arguments.head?
  | "!load" => .load arguments
  | "!vars" => .vars
  | "!reset" => .reset
  | "!clear" => .clear
  | "!toggle" => .toggle arguments.head?
  | "!source" => .source (if arguments.isEmpty then none else some (String.intercalate " " arguments))
  | "!exit" => .exit
  | other => .unknown other

def read (line : List Char) : Command :=
  match (Text.words line).map String.ofList with
  | [] => .unknown ""
  | word :: arguments => ofWords word arguments

def scriptOf? (line : List Char) : Option String :=
  match read (Text.trim line) with
  | .source path => path
  | _ => none

end Command

end QuantityCalculator
