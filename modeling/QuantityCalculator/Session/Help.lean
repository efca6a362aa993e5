import QuantityCalculator.Catalog.Standard
import QuantityCalculator.Session.Constants

/-!
The help that a session gives.
-/

namespace QuantityCalculator.Help

def topics : List String :=
  ["commands", "greek", "load", "syntax", "toggle", "units", "vars"]

private def paragraph (lines : List String) : String :=
  String.intercalate "\n" lines

def input : String :=
  paragraph
    ["Input is a sequence of values joined by operators.",
      "",
      "A value is a number with an optional unit, e.g. 5, 1/3, 2.5 km/h or 9.81 m/s^2.",
      "Numbers are integers, integer ratios or decimals. Integers and ratios stay",
      "exact; decimals are approximate. Units are written as in 'kg m^2 / s^2', with",
      "powers as ^n or superscripts. Every SI prefix is accepted, with u or μ for",
      "micro.",
      "",
      "Values can also be variables, written by name, and previous results, written",
      "as [n].",
      "",
      "Operators: + - * / ^ (also ** · × ÷)",
      "Prefix minus binds tighter than any operator, so -2^2 is 4.",
      "",
      "End a line with '-> unit', '→ unit' or 'as unit' to show the result in that",
      "unit, e.g. '90 km/h as m/s'.",
      "",
      "See also: !help greek, !help vars, !help units"]

def greek : String :=
  paragraph
    ["Greek letters are typed as \\x, with x from this table:",
      "",
      " x | a b c d e f g h i j k l m n o p q r s t u v w x y z",
      "\\x | α β γ δ ε φ γ χ ι η κ λ μ ν ω π ψ ρ σ τ υ θ   ξ   ζ",
      "",
      " x | A B C D E F G H I J K L M N O P Q R S T U V W X Y Z",
      "\\x | Α Β Γ Δ Ε Φ Γ Χ Ι Η Κ Λ Μ Ν Ω Π Ψ Ρ Σ Τ Υ Θ   Ξ   Ζ",
      "",
      "Letters without a Greek counterpart (w, y and their capitals) are errors.",
      "Note \\c = γ, \\j = η, \\q = ψ and \\v = θ."]

def names : String :=
  paragraph
    ["Variables are referred to by name, optionally with a subscript: x, v_0.",
      "",
      "Assign with",
      "    name := expression",
      "Several targets can be chained: a := b := 2 m.",
      "",
      "Unbound variables stay symbolic in results, so 'x + 3 m + 2 m' gives 5 m + x.",
      "Assignments only take effect when the whole line evaluates."]

def toggle : String :=
  paragraph
    ["Usage: !toggle <feature>",
      "Features:",
      "debug - show parsed input before evaluating",
      "frac  - show exact results as fractions",
      "cont  - continue the previous result when input starts with an operator"]

def commands : String :=
  paragraph
    ["Commands:",
      "!help [topic]     - show help",
      "!load <set>       - load a constant set",
      "!vars             - show variables",
      "!reset            - reset variables and results",
      "!clear            - clear the result history",
      "!toggle <feature> - toggle a feature",
      "!source <file>    - run the lines of a file",
      "!exit             - leave"]

def source : String :=
  paragraph
    ["Usage: !source <file>", "Runs each line of a file, stopping at the first error."]

def load : String :=
  paragraph
    ["Usage: !load <set>", "Loads a set of constants as variables.",
      "<set> is one of " ++ String.intercalate ", " Constants.setNames]

def units : String :=
  paragraph
    ["Known units. SI prefixes apply to the metric ones.",
      String.intercalate " " Catalog.standard.names]

def overview : String :=
  paragraph
    ["Type expressions to compute them.", "Type !help <topic> for help on a topic.",
      "Topics: " ++ String.intercalate ", " topics]

def on : Option String → String
  | some "syntax" => input
  | some "greek" => greek
  | some "vars" => names
  | some "commands" => commands
  | some "load" => load
  | some "toggle" => toggle
  | some "units" => units
  | _ => overview

end QuantityCalculator.Help
