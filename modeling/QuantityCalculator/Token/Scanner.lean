import QuantityCalculator.Number.Literal
import QuantityCalculator.Text.Greek
import QuantityCalculator.Token.Basic
import QuantityCalculator.Token.Spans

/-!
Scanning a line into lexemes.

At each place the longest lexeme is taken.  The word as introduces a display unit, but only if no longer
name starts with it and no mark behind it makes it a name.
-/

namespace QuantityCalculator.Token

/-- References to results have to fit into 64 bits. -/
def greatestIndex : Nat := 18446744073709551615

/-- The error at a place where no lexeme starts; it shows the next ten characters. -/
def unknownAt (text : List Char) : ReadError :=
  .unreadable (String.ofList (text.take 10))

def scanDisplayUnit (marker : String) (text : List Char) : Except ReadError (Token × List Char) :=
  match takeUnit? text with
  | none => .error (.missingUnit marker)
  | some (unit, rest) => (DisplayUnit.read unit).map fun read => (.displayUnit read, rest)

def scanOutput (results : Nat) (text : List Char) : Except ReadError (Token × List Char) :=
  let failure : Except ReadError (Token × List Char) := .error (unknownAt ('[' :: text))
  match Text.readNat? (text.takeWhile Char.isDigit), text.dropWhile Char.isDigit with
  | some index, ']' :: rest =>
    if greatestIndex < index then failure
    else if index = 0 || results < index then .error (.noSuchResult index)
    else .ok (.output index, rest)
  | _, _ => failure

def scanLiteral (text : List Char) : Except ReadError (Token × List Char) :=
  let (digits, rest) := takeNumber text
  if digits.isEmpty then .error (unknownAt text)
  else
    match Number.ofLiteral? digits with
    | none => .error (.badNumber (String.ofList digits))
    | some number =>
      match takeSuffix? rest with
      | none => .ok (.quantity (Quantity.ofNumber number), rest)
      | some (unit, after) =>
        (Measure.read (Text.trim unit)).map fun measure =>
          (.quantity { magnitude := number * measure.factor, dimension := measure.dimension }, after)

def scanName (text : List Char) : Except ReadError (Token × List Char) :=
  let (name, rest) := takeName text
  if name = ['a', 's'] && !rest.head?.any marksName then scanDisplayUnit "as" rest
  else .ok (.var (String.ofList name), rest)

/-- The first lexeme of a text that does not start with a blank, and what follows it.  `results` is the
number of stored results. -/
def scanOne (results : Nat) : List Char → Except ReadError (Token × List Char)
  | '-' :: '>' :: rest => scanDisplayUnit "->" rest
  | '→' :: rest => scanDisplayUnit "→" rest
  | '[' :: rest => scanOutput results rest
  | '*' :: '*' :: rest => .ok (.operator .raise, rest)
  | '^' :: rest => .ok (.operator .raise, rest)
  | '+' :: rest => .ok (.operator .add, rest)
  | '-' :: rest => .ok (.operator .subtract, rest)
  | '*' :: rest => .ok (.operator .multiply, rest)
  | '·' :: rest => .ok (.operator .multiply, rest)
  | '×' :: rest => .ok (.operator .multiply, rest)
  | '/' :: rest => .ok (.operator .divide, rest)
  | '÷' :: rest => .ok (.operator .divide, rest)
  | ':' :: '=' :: rest => .ok (.assign, rest)
  | '=' :: rest => .ok (.equals, rest)
  | '(' :: rest => .ok (.leftParen, rest)
  | ')' :: rest => .ok (.rightParen, rest)
  | [] => .error (unknownAt [])
  | c :: rest => if isLetter c then scanName (c :: rest) else scanLiteral (c :: rest)

/-- Scans at most as many lexemes as the first argument says. -/
def scanWithin (results : Nat) : Nat → List Char → Except ReadError (List Token)
  | 0, _ => .ok []
  | count + 1, text =>
    match Text.trimStart text with
    | [] => .ok []
    | start => do
      let (token, rest) ← scanOne results start
      let tokens ← scanWithin results count rest
      return token :: tokens

def scan (results : Nat) (line : String) : Except ReadError (List Token) := do
  let text ← Text.resolveEscapes line.toList
  scanWithin results text.length text

end QuantityCalculator.Token
