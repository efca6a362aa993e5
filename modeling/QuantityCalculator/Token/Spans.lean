import QuantityCalculator.Text.Blank
import QuantityCalculator.Text.Superscript

/-!
How far names, numbers and units reach in a text.

Each function takes the longest piece of its kind from the front of a text.  A unit reaches over terms
separated by blanks and, after a stroke, over a second such list; nothing that it takes has to be given
back, since all that follows the first term is optional.
-/

namespace QuantityCalculator.Token

/-! ### Characters -/

def isGreek (c : Char) : Bool :=
  0x370 ≤ c.toNat && c.toNat ≤ 0x3FF

/-- A letter of names and units: Latin without accents, or from the Greek block. -/
def isLetter (c : Char) : Bool :=
  c.isAlpha || isGreek c

def isSubscript (c : Char) : Bool :=
  c.isAlpha || c.isDigit || isGreek c

/-- A character that cannot be in a name, but keeps a name in front of it from being read as a word of
the language: the low line, and the combining marks from U+0340 to U+036F. -/
def marksName (c : Char) : Bool :=
  c = '_' || (0x340 ≤ c.toNat && c.toNat ≤ 0x36F)

/-! ### Names and numbers -/

def takeName (text : List Char) : List Char × List Char :=
  let letters := text.takeWhile isLetter
  match text.dropWhile isLetter with
  | '_' :: after =>
    match after.takeWhile isSubscript with
    | [] => (letters, '_' :: after)
    | subscript => (letters ++ '_' :: subscript, after.dropWhile isSubscript)
  | rest => (letters, rest)

/-- A number: digits, and possibly a stroke and digits or a point and any digits; or a point and digits.
The empty text if there is none. -/
def takeNumber (text : List Char) : List Char × List Char :=
  let digits := text.takeWhile Char.isDigit
  match digits, text.dropWhile Char.isDigit with
  | [], '.' :: after =>
    match after.takeWhile Char.isDigit with
    | [] => ([], text)
    | fraction => ('.' :: fraction, after.dropWhile Char.isDigit)
  | [], _ => ([], text)
  | whole, '/' :: after =>
    match after.takeWhile Char.isDigit with
    | [] => (whole, '/' :: after)
    | denominator => (whole ++ '/' :: denominator, after.dropWhile Char.isDigit)
  | whole, '.' :: after =>
    (whole ++ '.' :: after.takeWhile Char.isDigit, after.dropWhile Char.isDigit)
  | whole, rest => (whole, rest)

/-! ### Units -/

/-- Drops digits with at most one point in or before them, if there is a digit. -/
def dropDecimal? (text : List Char) : Option (List Char) :=
  match text.takeWhile Char.isDigit, text.dropWhile Char.isDigit with
  | [], '.' :: after =>
    if (after.takeWhile Char.isDigit).isEmpty then none else some (after.dropWhile Char.isDigit)
  | [], _ => none
  | _, '.' :: after => some (after.dropWhile Char.isDigit)
  | _, rest => some rest

def dropRaised? (text : List Char) : Option (List Char) :=
  let digits :=
    match text with
    | c :: rest => if c = Text.superscriptMinus then rest else text
    | [] => []
  if (digits.takeWhile Text.isSuperscriptDigit).isEmpty then none
  else some (digits.dropWhile Text.isSuperscriptDigit)

def dropPower (text : List Char) : List Char :=
  match text with
  | '^' :: '-' :: after => (dropDecimal? after).getD text
  | '^' :: after => (dropDecimal? after).getD text
  | _ => (dropRaised? text).getD text

def dropTerm? (text : List Char) : Option (List Char) :=
  if (text.takeWhile isLetter).isEmpty then none else some (dropPower (text.dropWhile isLetter))

/-- Drops further terms, each behind blanks, at most as many as the first argument says. -/
def dropMoreTerms : Nat → List Char → List Char
  | 0, text => text
  | count + 1, text =>
    match text with
    | c :: _ =>
      if Text.isBlank c then
        match dropTerm? (Text.trimStart text) with
        | some rest => dropMoreTerms count rest
        | none => text
      else text
    | [] => []

def dropTerms? (text : List Char) : Option (List Char) :=
  (dropTerm? text).map fun rest => dropMoreTerms rest.length rest

def dropUnit? (text : List Char) : Option (List Char) := do
  let rest ← dropTerms? (Text.trimStart text)
  match Text.trimStart rest with
  | '/' :: after => return (dropTerms? (Text.trimStart after)).getD rest
  | _ => return rest

def takeUnit? (text : List Char) : Option (List Char × List Char) :=
  (dropUnit? text).map fun rest => (text.take (text.length - rest.length), rest)

/-- What stands before the first term that is the word as, if there is such a term. -/
def beforeAs? (afterLetter : Bool) : List Char → Option (List Char)
  | [] => none
  | c :: rest =>
    if !afterLetter && (c :: rest).takeWhile isLetter = ['a', 's'] then some []
    else (beforeAs? (isLetter c) rest).map (c :: ·)

/-- A unit cut before the word as; a stroke that is left at the end is dropped as well. -/
def cutAtAs (text : List Char) : List Char :=
  match beforeAs? false text with
  | none => text
  | some before =>
    let kept := Text.trimEnd before
    if kept.getLast? = some '/' then Text.trimEnd kept.dropLast else kept

/-- The unit of a literal, with the blanks before it, and what follows.  The word as ends the unit, so
that it can introduce a display unit. -/
def takeSuffix? (text : List Char) : Option (List Char × List Char) := do
  let (unit, _) ← takeUnit? text
  let kept := cutAtAs unit
  if (Text.trim kept).isEmpty then none else some (kept, text.drop kept.length)

end QuantityCalculator.Token
