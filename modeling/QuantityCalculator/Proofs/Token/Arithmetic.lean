import QuantityCalculator.Proofs.Token.Scanner

/-!
Arithmetic expressions as texts.

An arithmetic expression is written with numerals, operators and parentheses, either without any blanks or with a
blank on each side of every operator.  Between blanks each piece is a lexeme; without them, two numerals with a
stroke between them are one literal.
-/

namespace QuantityCalculator

structure Numeral where
  digits : List Char
  value : Nat
  written : Token.IsNumeral digits value

def Numeral.ofNat (n : Nat) : Numeral := { digits := Nat.toDigits 10 n, value := n, written := .toDigits n }

inductive Piece where
  | numeral (numeral : Numeral)
  | operator (operator : Operator)
  | leftParen
  | rightParen

namespace Piece

def token : Piece → Token
  | .numeral number => .quantity (.ofNumber (.exact number.value))
  | .operator op => .operator op
  | .leftParen => .leftParen
  | .rightParen => .rightParen

def text : Piece → List Char
  | .numeral number => number.digits
  | .operator op => op.symbol.toList
  | .leftParen => ['(']
  | .rightParen => [')']

def spaced : Piece → List Char
  | .operator op => ' ' :: (op.symbol.toList ++ [' '])
  | other => other.text

def compactText (pieces : List Piece) : List Char :=
  pieces.flatMap text

def spacedText (pieces : List Piece) : List Char :=
  pieces.flatMap spaced

/-- A place in an expression: in front of an operand, or behind one. -/
inductive Place where
  | before
  | behind

/-- Pieces that can be read on from a place: operands and operators alternate. -/
inductive Alternate : Place → List Piece → Prop where
  | finish (place : Place) : Alternate place []
  | numeral (numeral : Numeral) {rest : List Piece} (later : Alternate .behind rest) :
      Alternate .before (.numeral numeral :: rest)
  | sign {rest : List Piece} (later : Alternate .before rest) :
      Alternate .before (.operator .subtract :: rest)
  | leftParen {rest : List Piece} (later : Alternate .before rest) : Alternate .before (.leftParen :: rest)
  | operator (operator : Operator) {rest : List Piece} (later : Alternate .before rest) :
      Alternate .behind (.operator operator :: rest)
  | rightParen {rest : List Piece} (later : Alternate .behind rest) : Alternate .behind (.rightParen :: rest)

/-! ### What may follow -/

def closers : List Char :=
  [')', '+', '-', '*', '/', '^']

/-- Nothing that may stand behind an operand can extend a number or start a unit. -/
theorem plain_of_closer {c : Char} (closer : c ∈ closers) :
    c.isDigit = false ∧ Token.isLetter c = false ∧ Text.isBlank c = false ∧ c ≠ '.' := by
  have each : (closers.all fun c => !c.isDigit && !Token.isLetter c && !Text.isBlank c && c != '.') = true := rfl
  have plain := List.all_eq_true.mp each c closer
  simpa only [Bool.and_eq_true, Bool.not_eq_true', bne_iff_ne, and_assoc] using plain

private theorem symbol_starts (operator : Operator) :
    ∃ c rest, operator.symbol.toList = c :: rest ∧ c ∈ closers := by
  cases operator <;> exact ⟨_, _, rfl, by decide⟩

theorem compactText_cons (piece : Piece) (rest : List Piece) :
    compactText (piece :: rest) = piece.text ++ compactText rest :=
  rfl

theorem spacedText_cons (piece : Piece) (rest : List Piece) :
    spacedText (piece :: rest) = piece.spaced ++ spacedText rest :=
  rfl

private theorem head_behind {pieces : List Piece} (alternate : Alternate .behind pieces) {c : Char}
    (isHead : (compactText pieces).head? = some c) : c ∈ closers := by
  cases alternate with
  | finish => cases isHead
  | operator op later =>
      obtain ⟨mark, others, isSymbol, closer⟩ := symbol_starts op
      rw [compactText_cons, text, isSymbol, List.cons_append] at isHead
      rw [← Option.some.inj isHead]
      exact closer
  | rightParen later =>
      rw [← Option.some.inj isHead]
      decide

private theorem head_before {pieces : List Piece} (alternate : Alternate .before pieces) {c : Char}
    (isHead : (compactText pieces).head? = some c) : c.isDigit = true ∨ c = '-' ∨ c = '(' := by
  cases alternate with
  | finish => cases isHead
  | numeral number later =>
      obtain ⟨first, others, isDigits, digit⟩ := number.written.starts
      rw [compactText_cons, text, isDigits, List.cons_append] at isHead
      rw [← Option.some.inj isHead]
      exact Or.inl digit
  | sign later => exact Or.inr (Or.inl (Option.some.inj isHead).symm)
  | leftParen later => exact Or.inr (Or.inr (Option.some.inj isHead).symm)

/-- Behind an operand a blank or a parenthesis follows. -/
theorem spaced_behind {pieces : List Piece} (alternate : Alternate .behind pieces) :
    (∀ c, (spacedText pieces).head? = some c → c = ' ' ∨ c = ')') ∧
      Token.Stops Token.isLetter (Text.trimStart (spacedText pieces)) := by
  cases alternate with
  | finish =>
      constructor <;>
        · intro c isHead
          cases isHead
  | @operator op rest later =>
      obtain ⟨mark, others, isSymbol, closer⟩ := symbol_starts op
      have noBlank := (plain_of_closer closer).2.2.1
      have trimmed : Text.trimStart (spacedText (.operator op :: rest)) =
          mark :: (others ++ ' ' :: spacedText rest) := by
        have blank : Text.isBlank ' ' = true := by decide
        rw [spacedText_cons, spaced, isSymbol, Text.trimStart, List.cons_append, List.dropWhile_cons, if_pos blank,
          List.cons_append, List.cons_append, List.dropWhile_cons, noBlank, if_neg Bool.false_ne_true,
          List.append_assoc]
        rfl
      refine ⟨fun c isHead => Or.inl (Option.some.inj isHead).symm, fun c isHead => ?_⟩
      rw [trimmed] at isHead
      rw [← Option.some.inj isHead]
      exact (plain_of_closer closer).2.1
  | rightParen later =>
      refine ⟨fun c isHead => Or.inr (Option.some.inj isHead).symm, fun c isHead => ?_⟩
      have isParen : c = ')' := (Option.some.inj isHead).symm
      rw [isParen]
      decide

end Piece

namespace Token

private theorem takeSuffix?_of_noLetter {rest : List Char} (noLetter : Stops isLetter (Text.trimStart rest)) :
    takeSuffix? rest = none := by
  have noTerm : dropTerm? (Text.trimStart rest) = none := by
    rw [dropTerm?, takeWhile_of_stops noLetter]
    rfl
  have noUnit : dropUnit? rest = none := by
    rw [dropUnit?, dropTerms?, noTerm]
    rfl
  simp only [takeSuffix?, takeUnit?, noUnit, Option.map_none, Option.bind_eq_bind, Option.bind_none]

/-- A number without a unit is a lexeme, if it can be read. -/
theorem scanOne_number {digits rest : List Char} (starts : ∃ c later, digits = c :: later ∧ c.isDigit = true)
    (taken : takeNumber (digits ++ rest) = (digits, rest)) (noLetter : Stops isLetter (Text.trimStart rest))
    (results : Nat) :
    scanOne results (digits ++ rest) =
      match Number.ofLiteral? digits with
      | none => .error (.badNumber (String.ofList digits))
      | some number => .ok (.quantity (.ofNumber number), rest) := by
  obtain ⟨c, later, isDigits, digit⟩ := starts
  obtain ⟨noMark, letter⟩ := plain_of_isDigit digit
  have nonempty : digits.isEmpty = false := by
    rw [isDigits]
    rfl
  have isLiteral : scanOne results (digits ++ rest) = scanLiteral (digits ++ rest) := by
    rw [isDigits, List.cons_append, scanOne_of_not_mem_marks noMark, letter, if_neg Bool.false_ne_true]
  rw [isLiteral]
  unfold scanLiteral
  rw [taken]
  dsimp only
  rw [nonempty, if_neg Bool.false_ne_true]
  cases Number.ofLiteral? digits with
  | none => rfl
  | some number => simp only [takeSuffix?_of_noLetter noLetter]

private theorem scanOne_times {text : List Char} (noPower : text.head? ≠ some '*') (results : Nat) :
    scanOne results ('*' :: text) = .ok (.operator .multiply, text) := by
  rw [scanOne]
  intro after isPower
  rw [isPower] at noPower
  exact noPower rfl

/-- An operator is a lexeme, in front of what does not make it a longer one. -/
theorem scanOne_operator {text : List Char} (noPower : text.head? ≠ some '*') (noArrow : text.head? ≠ some '>')
    (results : Nat) (operator : Operator) :
    scanOne results (operator.symbol.toList ++ text) = .ok (.operator operator, text) := by
  cases operator with
  | subtract => exact scanOne_minus noArrow results
  | multiply => exact scanOne_times noPower results
  | _ => rfl

theorem scanWithin_nil (results count : Nat) : scanWithin results count [] = .ok [] := by
  cases count <;> rfl

end Token

namespace Piece

open Token (scanWithin scanWithin_succ scanWithin_blank scanWithin_nil scanOne_number scanOne_operator)

private theorem scanOne_spaced (results : Nat) (number : Numeral) {rest : List Piece} (later : Alternate .behind rest) :
    Token.scanOne results (number.digits ++ spacedText rest) =
      .ok ((Piece.numeral number).token, spacedText rest) := by
  obtain ⟨heads, noLetter⟩ := spaced_behind later
  have head_ne : ∀ {c : Char}, c ≠ ' ' → c ≠ ')' → (spacedText rest).head? ≠ some c := by
    intro c noBlank noParen isHead
    exact (heads c isHead).elim noBlank noParen
  have stops : Token.Stops Char.isDigit (spacedText rest) := by
    intro c isHead
    rcases heads c isHead with rfl | rfl <;> rfl
  have noStroke : ∀ after, spacedText rest = '/' :: after → Token.Stops Char.isDigit after :=
    fun after isStroke => absurd (congrArg List.head? isStroke) (head_ne (by decide) (by decide))
  have taken := Token.takeNumber_whole number.written.nonempty number.written.decimal stops noStroke
    (head_ne (by decide) (by decide))
  rw [scanOne_number number.written.starts taken noLetter, Token.ofLiteral?_whole number.written]
  rfl

private theorem scanWithin_operator (results count : Nat) (op : Operator) (rest : List Piece) :
    scanWithin results (count + 1) (spacedText (.operator op :: rest)) =
      (scanWithin results count (spacedText rest)).map ((Piece.operator op).token :: ·) := by
  obtain ⟨mark, others, isSymbol, closer⟩ := symbol_starts op
  have scanned : Token.scanOne results (op.symbol.toList ++ ' ' :: spacedText rest) =
      .ok (.operator op, ' ' :: spacedText rest) :=
    scanOne_operator (fun isPower => by cases isPower) (fun isArrow => by cases isArrow) results op
  have starts : ∃ c after, op.symbol.toList ++ ' ' :: spacedText rest = c :: after ∧ Text.isBlank c = false :=
    ⟨mark, others ++ ' ' :: spacedText rest, by rw [isSymbol, List.cons_append], (plain_of_closer closer).2.2.1⟩
  have split : spacedText (.operator op :: rest) = ' ' :: (op.symbol.toList ++ ' ' :: spacedText rest) := by
    rw [spacedText_cons, spaced, List.cons_append, List.append_assoc]
    rfl
  rw [split, scanWithin_blank, scanWithin_succ starts scanned, scanWithin_blank]
  rfl

private theorem scanWithin_spaced (results count : Nat) {place : Place} {pieces : List Piece}
    (alternate : Alternate place pieces) :
    scanWithin results (count + pieces.length) (spacedText pieces) = .ok (pieces.map token) := by
  induction alternate with
  | finish => exact scanWithin_nil results _
  | @numeral number rest later ih =>
      obtain ⟨first, others, isDigits, digit⟩ := number.written.starts
      have starts : ∃ c after, number.digits ++ spacedText rest = c :: after ∧ Text.isBlank c = false :=
        ⟨first, others ++ spacedText rest, by rw [isDigits, List.cons_append],
          (Token.plain_of_isSubscript (Token.isSubscript_of_isDigit digit)).2.1⟩
      change scanWithin results (count + rest.length + 1) (number.digits ++ spacedText rest) = _
      rw [scanWithin_succ starts (scanOne_spaced results number later), ih]
      rfl
  | @sign rest later ih =>
      change scanWithin results (count + rest.length + 1) _ = _
      rw [scanWithin_operator, ih]
      rfl
  | @leftParen rest later ih =>
      have scanned : Token.scanOne results ('(' :: spacedText rest) = .ok (.leftParen, spacedText rest) := rfl
      change scanWithin results (count + rest.length + 1) ('(' :: spacedText rest) = _
      rw [scanWithin_succ ⟨'(', _, rfl, by decide⟩ scanned, ih]
      rfl
  | @operator op rest later ih =>
      change scanWithin results (count + rest.length + 1) _ = _
      rw [scanWithin_operator, ih]
      rfl
  | @rightParen rest later ih =>
      have scanned : Token.scanOne results (')' :: spacedText rest) = .ok (.rightParen, spacedText rest) := rfl
      change scanWithin results (count + rest.length + 1) (')' :: spacedText rest) = _
      rw [scanWithin_succ ⟨')', _, rfl, by decide⟩ scanned, ih]
      rfl

/-! ### Expressions without blanks -/

/-- A lexeme of an expression without blanks: a piece of it, or two numerals with a stroke between them. -/
inductive Fused where
  | piece (piece : Piece)
  | fraction (numerator denominator : Numeral)

/-- The lexemes of an expression without blanks.  From the left, a numeral takes the stroke and the numeral behind
it along. -/
def fuse : List Piece → List Fused
  | .numeral n :: .operator .divide :: .numeral d :: rest => .fraction n d :: fuse rest
  | first :: rest => .piece first :: fuse rest
  | [] => []

namespace Fused

def pieces : Fused → List Piece
  | .piece single => [single]
  | .fraction n d => [.numeral n, .operator .divide, .numeral d]

def token : Fused → Token
  | .piece single => single.token
  | .fraction n d => .quantity (.ofNumber (.exact ((n.value : Rat) / (d.value : Rat))))

/-- A fraction is a literal only without a zero below. -/
def IsLexeme : Fused → Prop
  | .piece _ => True
  | .fraction _ d => d.value ≠ 0

end Fused

theorem flatMap_fuse (pieces : List Piece) : (fuse pieces).flatMap Fused.pieces = pieces := by
  fun_induction fuse pieces with
  | case1 n d rest ih => rw [List.flatMap_cons, ih]; rfl
  | case2 first rest _ ih => rw [List.flatMap_cons, ih]; rfl
  | case3 => rfl

/-- Behind an operand nothing goes on a number, a unit or a name. -/
theorem compact_behind {rest : List Piece} (later : Alternate .behind rest) :
    Token.Stops Char.isDigit (compactText rest) ∧ (compactText rest).head? ≠ some '.' ∧
      Token.Stops Token.isLetter (Text.trimStart (compactText rest)) := by
  have plain : ∀ c, (compactText rest).head? = some c → c.isDigit = false ∧ Token.isLetter c = false ∧
      Text.isBlank c = false ∧ c ≠ '.' := fun c isHead => plain_of_closer (head_behind later isHead)
  refine ⟨fun c isHead => (plain c isHead).1, fun isPoint => (plain '.' isPoint).2.2.2 rfl, fun c isHead => ?_⟩
  cases isText : compactText rest with
  | nil =>
      rw [isText] at isHead
      cases isHead
  | cons first others =>
      have isFirst : (compactText rest).head? = some first := by
        rw [isText]
        rfl
      rw [isText, Text.trimStart_of_noBlank (plain first isFirst).2.2.1] at isHead
      rw [← Option.some.inj isHead]
      exact (plain first isFirst).2.1

/-- A stroke that no numeral follows is not part of a number. -/
theorem noDenominator_of_behind {rest : List Piece} (later : Alternate .behind rest)
    (apart : ∀ d others, rest ≠ .operator .divide :: .numeral d :: others) :
    ∀ after, compactText rest = '/' :: after → Token.Stops Char.isDigit after := by
  intro after isStroke
  cases later with
  | finish => cases isStroke
  | rightParen _ => cases isStroke
  | @operator op others later =>
      cases op with
      | divide =>
          have isAfter : compactText others = after := (List.cons.inj isStroke).2
          intro c isHead
          rw [← isAfter] at isHead
          cases later with
          | finish => cases isHead
          | numeral d _ => exact absurd rfl (apart d _)
          | sign _ => exact Option.some.inj isHead ▸ rfl
          | leftParen _ => exact Option.some.inj isHead ▸ rfl
      | _ => cases isStroke

/-- The first lexeme of an expression without blanks that starts with a numeral. -/
theorem scanOne_numeral (results : Nat) (number : Numeral) {rest : List Piece} (later : Alternate .behind rest)
    (apart : ∀ d others, rest ≠ .operator .divide :: .numeral d :: others) :
    Token.scanOne results (number.digits ++ compactText rest) =
      .ok ((Piece.numeral number).token, compactText rest) := by
  obtain ⟨stops, noPoint, noLetter⟩ := compact_behind later
  have taken := Token.takeNumber_whole number.written.nonempty number.written.decimal stops
    (noDenominator_of_behind later apart) noPoint
  rw [scanOne_number number.written.starts taken noLetter, Token.ofLiteral?_whole number.written]
  rfl

private theorem scanOne_fraction (results : Nat) (n d : Numeral) {rest : List Piece} (later : Alternate .behind rest) :
    Token.scanOne results (n.digits ++ '/' :: d.digits ++ compactText rest) =
      if d.value = 0 then .error (.badNumber (String.ofList (n.digits ++ '/' :: d.digits)))
      else .ok ((Fused.fraction n d).token, compactText rest) := by
  obtain ⟨stops, _, noLetter⟩ := compact_behind later
  have starts : ∃ c others, n.digits ++ '/' :: d.digits = c :: others ∧ c.isDigit = true := by
    obtain ⟨first, others, isDigits, digit⟩ := n.written.starts
    exact ⟨first, others ++ '/' :: d.digits, by rw [isDigits, List.cons_append], digit⟩
  have taken : Token.takeNumber (n.digits ++ '/' :: d.digits ++ compactText rest) =
      (n.digits ++ '/' :: d.digits, compactText rest) := by
    rw [List.append_assoc, List.cons_append]
    exact Token.takeNumber_ratio n.written.nonempty n.written.decimal d.written.nonempty d.written.decimal stops
  rw [scanOne_number starts taken noLetter, Token.ofLiteral?_ratio n.written d.written]
  by_cases zero : d.value = 0
  · rw [if_pos zero, if_pos zero]
  · rw [if_neg zero, if_neg zero]
    rfl

private theorem scanOne_sign (results : Nat) {op : Operator} {rest : List Piece} (later : Alternate .before rest) :
    Token.scanOne results (op.symbol.toList ++ compactText rest) = .ok (.operator op, compactText rest) := by
  have head_ne : ∀ {c : Char}, c.isDigit = false → c ≠ '-' → c ≠ '(' → (compactText rest).head? ≠ some c := by
    intro c noDigit noMinus noParen isHead
    rcases head_before later isHead with digit | isMinus | isParen
    · rw [digit] at noDigit
      cases noDigit
    · exact noMinus isMinus
    · exact noParen isParen
  exact scanOne_operator (head_ne (by decide) (by decide) (by decide)) (head_ne (by decide) (by decide) (by decide))
    results op

private theorem eq_cons_of_scanWithin {results count : Nat} {text rest : List Char} {token : Token}
    {tokens : List Token}
    (starts : ∃ c after, text = c :: after ∧ Text.isBlank c = false)
    (first : Token.scanOne results text = .ok (token, rest))
    (scanned : scanWithin results (count + 1) text = .ok tokens) :
    ∃ later, scanWithin results count rest = .ok later ∧ token :: later = tokens := by
  rw [scanWithin_succ starts first] at scanned
  exact map_eq_ok_iff.mp scanned

private theorem alternate_fraction {place : Place} {n d : Numeral} {rest : List Piece}
    (alternate : Alternate place (.numeral n :: .operator .divide :: .numeral d :: rest)) :
    Alternate .behind rest := by
  cases alternate with
  | numeral _ behind =>
      cases behind with
      | operator _ before =>
          cases before with
          | numeral _ later => exact later

private theorem starts_of_digits (number : Numeral) (rest : List Char) :
    ∃ c after, number.digits ++ rest = c :: after ∧ Text.isBlank c = false := by
  obtain ⟨first, others, isDigits, digit⟩ := number.written.starts
  exact ⟨first, others ++ rest, by rw [isDigits, List.cons_append],
    (Token.plain_of_isSubscript (Token.isSubscript_of_isDigit digit)).2.1⟩

private theorem starts_of_symbol (op : Operator) (rest : List Char) :
    ∃ c after, op.symbol.toList ++ rest = c :: after ∧ Text.isBlank c = false := by
  obtain ⟨mark, others, isSymbol, closer⟩ := symbol_starts op
  exact ⟨mark, others ++ rest, by rw [isSymbol, List.cons_append], (plain_of_closer closer).2.2.1⟩

/-- Unless a fraction starts here, the first piece is a lexeme. -/
theorem scanOne_compact (results : Nat) {place : Place} {first : Piece} {rest : List Piece}
    (alternate : Alternate place (first :: rest))
    (apart : ∀ n d others, first = .numeral n → rest ≠ .operator .divide :: .numeral d :: others) :
    (∃ c after, first.text ++ compactText rest = c :: after ∧ Text.isBlank c = false) ∧
      Token.scanOne results (first.text ++ compactText rest) = .ok (first.token, compactText rest) ∧
        ∃ place, Alternate place rest := by
  cases alternate with
  | numeral number later =>
      exact ⟨starts_of_digits number _, scanOne_numeral results number later fun d others =>
        apart number d others rfl, _, later⟩
  | sign later => exact ⟨starts_of_symbol _ _, scanOne_sign results later, _, later⟩
  | leftParen later => exact ⟨⟨'(', _, rfl, by decide⟩, rfl, _, later⟩
  | operator op later => exact ⟨starts_of_symbol _ _, scanOne_sign results later, _, later⟩
  | rightParen later => exact ⟨⟨')', _, rfl, by decide⟩, rfl, _, later⟩

/-- The lexemes of an expression without blanks, where it is scanned to its end. -/
theorem of_scanWithin_compact {results count : Nat} {place : Place} {pieces : List Piece} {tokens : List Token}
    (alternate : Alternate place pieces)
    (scanned : scanWithin results (count + (fuse pieces).length) (compactText pieces) = .ok tokens) :
    (∀ lexeme, lexeme ∈ fuse pieces → lexeme.IsLexeme) ∧ tokens = (fuse pieces).map Fused.token := by
  fun_induction fuse pieces generalizing place tokens with
  | case1 n d rest ih =>
      have later := alternate_fraction alternate
      have first := scanOne_fraction results n d later
      have split : compactText (.numeral n :: .operator .divide :: .numeral d :: rest) =
          n.digits ++ '/' :: d.digits ++ compactText rest := by
        rw [List.append_assoc]
        rfl
      have starts : ∃ c after, n.digits ++ '/' :: d.digits ++ compactText rest = c :: after ∧
          Text.isBlank c = false := by
        rw [List.append_assoc]
        exact starts_of_digits n _
      rw [split, List.length_cons, ← Nat.add_assoc] at scanned
      by_cases zero : d.value = 0
      · rw [if_pos zero] at first
        obtain ⟨c, after, isText, noBlank⟩ := starts
        rw [isText] at first scanned
        simp only [scanWithin, Text.trimStart_of_noBlank noBlank, first] at scanned
        cases scanned
      · rw [if_neg zero] at first
        obtain ⟨others, onward, rfl⟩ := eq_cons_of_scanWithin starts first scanned
        obtain ⟨all, rfl⟩ := ih later onward
        exact ⟨List.forall_mem_cons.mpr ⟨zero, all⟩, rfl⟩
  | case2 first rest apart ih =>
      obtain ⟨starts, isFirst, _, later⟩ := scanOne_compact results alternate fun n d others isNumeral isFraction =>
        apart n d others isNumeral isFraction
      rw [compactText_cons, List.length_cons, ← Nat.add_assoc] at scanned
      obtain ⟨others, onward, rfl⟩ := eq_cons_of_scanWithin starts isFirst scanned
      obtain ⟨all, rfl⟩ := ih later onward
      exact ⟨List.forall_mem_cons.mpr ⟨trivial, all⟩, rfl⟩
  | case3 =>
      have nothing : compactText [] = [] := rfl
      rw [nothing, scanWithin_nil] at scanned
      cases scanned
      exact ⟨fun lexeme member => (List.not_mem_nil member).elim, rfl⟩

/-! ### Whole texts -/

/-- A text that takes place, and that no escape changes. -/
def IsPlainText (text : List Char) : Prop :=
  text ≠ [] ∧ ∀ c, c ∈ text → c ≠ '\\' ∧ c ≠ Text.microSign

theorem text_plain (piece : Piece) : IsPlainText piece.text := by
  cases piece with
  | numeral number => exact ⟨number.written.nonempty, number.written.noEscape⟩
  | operator op =>
      refine ⟨?_, fun c member => ?_⟩
      · obtain ⟨mark, others, isSymbol, _⟩ := symbol_starts op
        rw [text, isSymbol]
        exact List.cons_ne_nil _ _
      · have each : (op.symbol.toList.all fun c => c != '\\' && c != Text.microSign) = true := by
          cases op <;> decide
        have plain := List.all_eq_true.mp each c member
        rwa [Bool.and_eq_true, bne_iff_ne, bne_iff_ne] at plain
  | leftParen => exact ⟨List.cons_ne_nil _ _, List.forall_mem_singleton.mpr (by decide)⟩
  | rightParen => exact ⟨List.cons_ne_nil _ _, List.forall_mem_singleton.mpr (by decide)⟩

private theorem spaced_plain (piece : Piece) : IsPlainText piece.spaced := by
  cases piece with
  | operator op =>
      refine ⟨List.cons_ne_nil _ _, fun c member => ?_⟩
      have blank : ' ' ≠ '\\' ∧ ' ' ≠ Text.microSign := by decide
      rcases List.mem_cons.mp member with isBlank | inRest
      · exact isBlank ▸ blank
      · rcases List.mem_append.mp inRest with inSymbol | isLast
        · exact (text_plain (.operator op)).2 c inSymbol
        · exact List.mem_singleton.mp isLast ▸ blank
  | numeral number => exact text_plain (.numeral number)
  | leftParen => exact text_plain .leftParen
  | rightParen => exact text_plain .rightParen

private theorem length_le_flatMap {text : Piece → List Char} (plain : ∀ piece, IsPlainText (text piece))
    (pieces : List Piece) : pieces.length ≤ (pieces.flatMap text).length := by
  induction pieces with
  | nil => exact Nat.zero_le _
  | cons first rest ih =>
      have positive := List.length_pos_iff.mpr (plain first).1
      rw [List.flatMap_cons, List.length_append, List.length_cons]
      omega

private theorem length_fuse_le (pieces : List Piece) : (fuse pieces).length ≤ pieces.length := by
  fun_induction fuse pieces with
  | case1 n d rest ih =>
      simp only [List.length_cons]
      omega
  | case2 first rest _ ih => exact Nat.succ_le_succ ih
  | case3 => exact Nat.le_refl _

private theorem scan_flatMap {text : Piece → List Char} (plain : ∀ piece, IsPlainText (text piece)) (results : Nat)
    (pieces : List Piece) :
    Token.scan results (String.ofList (pieces.flatMap text)) =
      scanWithin results (pieces.flatMap text).length (pieces.flatMap text) := by
  have noEscape : ∀ c, c ∈ pieces.flatMap text → c ≠ '\\' ∧ c ≠ Text.microSign := by
    intro c member
    obtain ⟨piece, _, inText⟩ := List.mem_flatMap.mp member
    exact (plain piece).2 c inText
  rw [Token.scan, String.toList_ofList, Token.resolveEscapes_of_noEscape noEscape]
  rfl

/-- Between blanks the lexemes of an expression are its pieces. -/
theorem scan_spaced (results : Nat) {place : Place} {pieces : List Piece} (alternate : Alternate place pieces) :
    Token.scan results (String.ofList (spacedText pieces)) = .ok (pieces.map token) := by
  have enough := length_le_flatMap spaced_plain pieces
  rw [spacedText, scan_flatMap spaced_plain, ← Nat.sub_add_cancel enough]
  exact scanWithin_spaced results _ alternate

/-- Without blanks they are its pieces with the fractions fused. -/
theorem of_scan_compact {results : Nat} {place : Place} {pieces : List Piece} {tokens : List Token}
    (alternate : Alternate place pieces)
    (scanned : Token.scan results (String.ofList (compactText pieces)) = .ok tokens) :
    (∀ lexeme, lexeme ∈ fuse pieces → lexeme.IsLexeme) ∧ tokens = (fuse pieces).map Fused.token := by
  have enough := Nat.le_trans (length_fuse_le pieces) (length_le_flatMap text_plain pieces)
  rw [compactText, scan_flatMap text_plain, ← Nat.sub_add_cancel enough] at scanned
  exact of_scanWithin_compact alternate scanned

end Piece

end QuantityCalculator
