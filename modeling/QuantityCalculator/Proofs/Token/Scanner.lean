import Mathlib.Data.Rat.Lemmas
import QuantityCalculator.Proofs.Except
import QuantityCalculator.Proofs.Text
import QuantityCalculator.Token.Scanner

/-!
Scanning what has been written.

A name, a number or a reference is found again in front of whatever cannot extend it.  So the lexemes of a text
are those of its pieces, as long as operators stand between blanks.
-/

namespace QuantityCalculator.Token

/-! ### Where a run of characters stops -/

def Stops (kind : Char → Bool) (text : List Char) : Prop :=
  ∀ c, text.head? = some c → kind c = false

theorem takeWhile_append {kind : Char → Bool} {run rest : List Char} (all : ∀ c, c ∈ run → kind c = true)
    (stops : Stops kind rest) : (run ++ rest).takeWhile kind = run := by
  rw [List.takeWhile_append_of_pos all]
  cases rest with
  | nil => exact List.append_nil run
  | cons c rest => rw [List.takeWhile_cons, stops c rfl, if_neg Bool.false_ne_true, List.append_nil]

theorem dropWhile_append {kind : Char → Bool} {run rest : List Char} (all : ∀ c, c ∈ run → kind c = true)
    (stops : Stops kind rest) : (run ++ rest).dropWhile kind = rest := by
  rw [List.dropWhile_append_of_pos all]
  cases rest with
  | nil => rfl
  | cons c rest => rw [List.dropWhile_cons, stops c rfl, if_neg Bool.false_ne_true]

theorem takeWhile_of_stops {kind : Char → Bool} {rest : List Char} (stops : Stops kind rest) :
    rest.takeWhile kind = [] :=
  @takeWhile_append kind [] rest (fun _ member => (List.not_mem_nil member).elim) stops

private theorem all_of_mem_takeWhile {kind : Char → Bool} {text : List Char} :
    ∀ c, c ∈ text.takeWhile kind → kind c = true :=
  List.all_eq_true.mp List.all_takeWhile

/-! ### Names -/

theorem takeName_append (text : List Char) : (takeName text).1 ++ (takeName text).2 = text := by
  have split := List.takeWhile_append_dropWhile (p := isLetter) (l := text)
  unfold takeName
  split
  · rename_i after isAfter
    rw [isAfter] at split
    split
    · exact split
    · rw [List.append_assoc, List.cons_append, List.takeWhile_append_dropWhile]
      exact split
  · exact split

/-- A text that is a name as a whole: letters, and possibly a low line with a subscript. -/
theorem eq_of_takeName {text : List Char} (whole : takeName text = (text, [])) :
    (∀ c, c ∈ text → isLetter c = true) ∨
      ∃ letters subscript, text = letters ++ '_' :: subscript ∧ subscript ≠ [] ∧
        (∀ c, c ∈ letters → isLetter c = true) ∧ ∀ c, c ∈ subscript → isSubscript c = true := by
  unfold takeName at whole
  split at whole
  · split at whole
    · cases (Prod.mk.inj whole).2
    · rename_i nonempty
      rw [← (Prod.mk.inj whole).1]
      exact Or.inr ⟨_, _, rfl, nonempty, all_of_mem_takeWhile, all_of_mem_takeWhile⟩
  · rw [← (Prod.mk.inj whole).1]
    exact Or.inl all_of_mem_takeWhile

/-- A name is found again in front of what cannot extend it. -/
theorem takeName_of_stops {text rest : List Char} (whole : takeName text = (text, []))
    (noLetter : Stops isLetter rest) (noLine : rest.head? ≠ some '_') (noSubscript : Stops isSubscript rest) :
    takeName (text ++ rest) = (text, rest) := by
  rcases eq_of_takeName whole with all | ⟨letters, subscript, rfl, nonempty, all, allAfter⟩
  · unfold takeName
    rw [takeWhile_append all noLetter, dropWhile_append all noLetter]
    cases rest with
    | nil => rfl
    | cons c rest =>
        split
        · rename_i isLine
          exact absurd (congrArg List.head? isLine) noLine
        · rfl
  · have stops : Stops isLetter ('_' :: (subscript ++ rest)) := by
      intro c isHead
      rw [← Option.some.inj isHead]
      decide
    have split : letters ++ '_' :: subscript ++ rest = letters ++ '_' :: (subscript ++ rest) := by
      rw [List.append_assoc, List.cons_append]
    unfold takeName
    rw [split, takeWhile_append all stops, dropWhile_append all stops]
    simp only [takeWhile_append allAfter noSubscript, dropWhile_append allAfter noSubscript]

/-! ### Numbers -/

theorem takeNumber_whole {whole rest : List Char} (nonempty : whole ≠ [])
    (digits : ∀ c, c ∈ whole → c.isDigit = true) (stops : Stops Char.isDigit rest)
    (noDenominator : ∀ after, rest = '/' :: after → Stops Char.isDigit after)
    (noPoint : rest.head? ≠ some '.') : takeNumber (whole ++ rest) = (whole, rest) := by
  unfold takeNumber
  rw [takeWhile_append digits stops, dropWhile_append digits stops]
  dsimp only
  split
  · exact absurd rfl nonempty
  · exact absurd rfl nonempty
  · rename_i after _
    rw [takeWhile_of_stops (noDenominator after rfl)]
  · exact absurd rfl noPoint
  · rfl

theorem takeNumber_ratio {whole denominator rest : List Char} (nonempty : whole ≠ [])
    (digits : ∀ c, c ∈ whole → c.isDigit = true) (denominatorNonempty : denominator ≠ [])
    (denominatorDigits : ∀ c, c ∈ denominator → c.isDigit = true) (stops : Stops Char.isDigit rest) :
    takeNumber (whole ++ '/' :: (denominator ++ rest)) = (whole ++ '/' :: denominator, rest) := by
  have stroke : Stops Char.isDigit ('/' :: (denominator ++ rest)) := by
    intro c isHead
    rw [← Option.some.inj isHead]
    rfl
  have taken := takeWhile_append denominatorDigits stops
  have dropped := dropWhile_append denominatorDigits stops
  unfold takeNumber
  rw [takeWhile_append digits stroke, dropWhile_append digits stroke]
  cases whole with
  | nil => exact absurd rfl nonempty
  | cons first others =>
      cases denominator with
      | nil => exact absurd rfl denominatorNonempty
      | cons next later => simp only [taken, dropped]

/-! ### The first lexeme -/

def marks : List Char :=
  ['-', '→', '[', '*', '^', '+', '·', '×', '/', '÷', ':', '=', '(', ')']

theorem scanOne_of_not_mem_marks {c : Char} (noMark : c ∉ marks) (results : Nat) (rest : List Char) :
    scanOne results (c :: rest) =
      if isLetter c then scanName (c :: rest) else scanLiteral (c :: rest) := by
  unfold scanOne
  split
  case h_18 same => rw [← (List.cons.inj same).1, ← (List.cons.inj same).2]
  all_goals
    rename_i same
    cases same <;> exact absurd (by decide) noMark

private theorem not_mem_marks_of_isLetter {c : Char} (letter : isLetter c = true) : c ∉ marks := by
  intro member
  have each : (marks.all fun mark => !isLetter mark) = true := by decide
  have noLetter := List.all_eq_true.mp each c member
  rw [letter] at noLetter
  cases noLetter

theorem plain_of_isDigit {c : Char} (digit : c.isDigit = true) : c ∉ marks ∧ isLetter c = false := by
  obtain ⟨d, small, rfl⟩ := Text.eq_digitChar_of_isDigit digit
  have each : ∀ d, d < 10 → Nat.digitChar d ∉ marks ∧ isLetter (Nat.digitChar d) = false := by decide
  exact each d small

theorem scanDisplayUnit_eq_ok {marker : String} {text rest : List Char} {token : Token}
    (scanned : scanDisplayUnit marker text = .ok (token, rest)) : ∃ unit, token = .displayUnit unit := by
  unfold scanDisplayUnit at scanned
  split at scanned
  · cases scanned
  · rename_i unit after _
    obtain ⟨found, _, same⟩ := bind_eq_ok_iff.mp scanned
    cases same
    exact ⟨found, rfl⟩

theorem scanOutput_eq_ok {results : Nat} {text rest : List Char} {token : Token}
    (scanned : scanOutput results text = .ok (token, rest)) :
    ∃ index, token = .output index ∧ 0 < index ∧ index ≤ results := by
  unfold scanOutput at scanned
  dsimp only at scanned
  split at scanned
  · split at scanned
    · cases scanned
    · split at scanned
      · cases scanned
      · rename_i index _ _ _ _ inRange
        cases scanned
        rw [Bool.or_eq_true, decide_eq_true_iff, decide_eq_true_iff] at inRange
        exact ⟨index, rfl, by omega, by omega⟩
  · cases scanned

theorem scanLiteral_eq_ok {text rest : List Char} {token : Token}
    (scanned : scanLiteral text = .ok (token, rest)) : ∃ value, token = .quantity value := by
  unfold scanLiteral at scanned
  dsimp only at scanned
  split at scanned
  · cases scanned
  · split at scanned
    · cases scanned
    · split at scanned
      · cases scanned
        exact ⟨_, rfl⟩
      · obtain ⟨measure, _, same⟩ := bind_eq_ok_iff.mp scanned
        cases same
        exact ⟨_, rfl⟩

def IsPlain : Token → Prop
  | .var _ => False
  | .output _ => False
  | _ => True

/-- What refers to something is scanned as a name, or as a reference to a stored result. -/
theorem scanOne_eq_ok {results : Nat} {text rest : List Char} {token : Token}
    (scanned : scanOne results text = .ok (token, rest)) :
    token.IsPlain ∨ (∃ index, token = .output index ∧ 0 < index ∧ index ≤ results) ∨
      ∃ c later, text = c :: later ∧ isLetter c = true ∧ scanName text = .ok (token, rest) := by
  have unit : ∀ {marker after}, scanDisplayUnit marker after = .ok (token, rest) → token.IsPlain := by
    intro marker after isUnit
    obtain ⟨found, rfl⟩ := scanDisplayUnit_eq_ok isUnit
    trivial
  unfold scanOne at scanned
  split at scanned
  case h_1 => exact Or.inl (unit scanned)
  case h_2 => exact Or.inl (unit scanned)
  case h_3 => exact Or.inr (Or.inl (scanOutput_eq_ok scanned))
  case h_17 => cases scanned
  case h_18 =>
    split at scanned
    · rename_i letter
      exact Or.inr (Or.inr ⟨_, _, rfl, letter, scanned⟩)
    · obtain ⟨value, rfl⟩ := scanLiteral_eq_ok scanned
      exact Or.inl trivial
  all_goals
    cases scanned
    exact Or.inl trivial

theorem scanName_eq_ok {text rest : List Char} {token : Token} (scanned : scanName text = .ok (token, rest)) :
    token.IsPlain ∨ (token = .var (String.ofList (takeName text).1) ∧ (takeName text).2 = rest ∧
      ((takeName text).1 = ['a', 's'] → rest ≠ [])) := by
  unfold scanName at scanned
  dsimp only at scanned
  split at scanned
  · obtain ⟨unit, rfl⟩ := scanDisplayUnit_eq_ok scanned
    exact Or.inl trivial
  · rename_i noUnit
    cases scanned
    refine Or.inr ⟨rfl, rfl, fun isAs nothing => noUnit ?_⟩
    rw [isAs, nothing]
    rfl

/-- A reference that is scanned is to a stored result. -/
theorem bounds_of_scanOne_output {results index : Nat} {text rest : List Char}
    (scanned : scanOne results text = .ok (.output index, rest)) : 0 < index ∧ index ≤ results := by
  rcases scanOne_eq_ok scanned with plain | ⟨other, same, bounds⟩ | ⟨c, later, _, _, isName⟩
  · exact plain.elim
  · cases same
    exact bounds
  · rcases scanName_eq_ok isName with plain | ⟨same, _⟩
    · exact plain.elim
    · cases same

/-! ### Lexemes one after the other -/

theorem scanWithin_eq_cons {results count : Nat} {text : List Char} {token : Token} {tokens : List Token}
    (scanned : scanWithin results count text = .ok (token :: tokens)) :
    ∃ smaller rest, scanOne results (Text.trimStart text) = .ok (token, rest) ∧
      scanWithin results smaller rest = .ok tokens := by
  cases count with
  | zero => cases scanned
  | succ smaller =>
      simp only [scanWithin] at scanned
      split at scanned
      · cases scanned
      · obtain ⟨⟨token, rest⟩, first, onward⟩ := bind_eq_ok_iff.mp scanned
        obtain ⟨tokens, later, same⟩ := bind_eq_ok_iff.mp onward
        cases same
        exact ⟨smaller, rest, first, later⟩

theorem bounds_of_scanWithin {results count : Nat} {text : List Char} {tokens : List Token}
    (scanned : scanWithin results count text = .ok tokens) :
    ∀ index, Token.output index ∈ tokens → 0 < index ∧ index ≤ results := by
  induction tokens generalizing count text with
  | nil => exact fun index member => by cases member
  | cons token rest ih =>
      obtain ⟨smaller, after, first, later⟩ := scanWithin_eq_cons scanned
      intro index member
      rcases List.mem_cons.mp member with same | inRest
      · rw [← same] at first
        exact bounds_of_scanOne_output first
      · exact ih later index inRest

/-! ### Names on their own -/

structure IsNameText (text : List Char) : Prop where
  whole : takeName text = (text, [])
  starts : ∃ c rest, text = c :: rest ∧ isLetter c = true
  noWord : text ≠ ['a', 's']

private theorem length_resolveEscapes {text resolved : List Char}
    (resolves : Text.resolveEscapes text = .ok resolved) : resolved.length ≤ text.length := by
  fun_induction Text.resolveEscapes text generalizing resolved with
  | case1 =>
      cases resolves
      exact Nat.le_refl _
  | case2 => cases resolves
  | case3 letter rest greek _ ih =>
      obtain ⟨later, laterResolves, rfl⟩ := map_eq_ok_iff.mp resolves
      have shorter := ih laterResolves
      simp only [List.length_cons]
      omega
  | case4 => cases resolves
  | case5 c rest _ _ ih =>
      obtain ⟨later, laterResolves, rfl⟩ := map_eq_ok_iff.mp resolves
      exact Nat.succ_le_succ (ih laterResolves)

theorem scan_eq_ok {results : Nat} {line : String} {tokens : List Token}
    (scanned : scan results line = .ok tokens) :
    ∃ text, Text.resolveEscapes line.toList = .ok text ∧
      scanWithin results text.length text = .ok tokens :=
  bind_eq_ok_iff.mp scanned

/-- What the scanner reads as the name of a variable is a name from its first to its last character. -/
theorem isNameText_of_scan {results : Nat} {name : String} (scanned : scan results name = .ok [.var name]) :
    IsNameText name.toList := by
  obtain ⟨text, resolves, lexemes⟩ := scan_eq_ok scanned
  obtain ⟨smaller, rest, first, _⟩ := scanWithin_eq_cons lexemes
  have shorter := length_resolveEscapes resolves
  have trimmed : (Text.trimStart text).length ≤ text.length := (List.dropWhile_sublist _).length_le
  rcases scanOne_eq_ok first with plain | ⟨index, same, _⟩ | ⟨c, later, starts, letter, isName⟩
  · exact plain.elim
  · cases same
  · rcases scanName_eq_ok isName with plain | ⟨same, isRest, noWord⟩
    · exact plain.elim
    · have taken : name.toList = (takeName (Text.trimStart text)).1 := by
        rw [Token.var.inj same, String.toList_ofList]
      have parts := takeName_append (Text.trimStart text)
      rw [isRest, ← taken] at parts
      -- the name is as long as the text, so nothing stands before or behind it
      have nothing : rest = [] := by
        have total := congrArg List.length parts
        rw [List.length_append] at total
        exact List.length_eq_zero_iff.mp (by omega)
      rw [nothing, List.append_nil] at parts
      rw [parts]
      refine ⟨Prod.ext ?_ ?_, ⟨c, later, starts, letter⟩, ?_⟩
      · exact taken.symm.trans parts
      · exact isRest.trans nothing
      · intro isWord
        rw [← taken, parts] at noWord
        exact noWord isWord nothing

/-! ### Pieces of a text -/

/-- What may follow an operand: nothing, a parenthesis, or an operator between blanks. -/
inductive Closes : List Char → Prop where
  | finish : Closes []
  | paren (rest : List Char) : Closes (')' :: rest)
  | operator (operator : Operator) (rest : List Char) :
      Closes (' ' :: (operator.symbol.toList ++ ' ' :: rest))

theorem Closes.stops {rest : List Char} (closes : Closes rest) {kind : Char → Bool} (noParen : kind ')' = false)
    (noBlank : kind ' ' = false) : Stops kind rest := by
  intro c isHead
  cases closes with
  | finish => cases isHead
  | paren rest => exact Option.some.inj isHead ▸ noParen
  | operator operator rest => exact Option.some.inj isHead ▸ noBlank

private theorem Closes.head?_ne {rest : List Char} (closes : Closes rest) {c : Char} (noParen : c ≠ ')')
    (noBlank : c ≠ ' ') : rest.head? ≠ some c := by
  intro isHead
  cases closes with
  | finish => cases isHead
  | paren rest => exact noParen (Option.some.inj isHead).symm
  | operator operator rest => exact noBlank (Option.some.inj isHead).symm

/-- No unit follows an operand. -/
theorem Closes.takeSuffix? {rest : List Char} (closes : Closes rest) : takeSuffix? rest = none := by
  have noUnit : dropUnit? rest = none := by
    cases closes with
    | finish => rfl
    | paren rest => rfl
    | operator operator rest => cases operator <;> rfl
  simp only [Token.takeSuffix?, takeUnit?, noUnit, Option.map_none, Option.bind_eq_bind, Option.bind_none]

/-- A piece of text is scanned as some lexemes in front of whatever may follow an operand. -/
structure Scans (results : Nat) (piece : List Char) (tokens : List Token) : Prop where
  starts : ∃ c rest, piece = c :: rest ∧ c ≠ '>' ∧ Text.isBlank c = false
  noEscape : ∀ c, c ∈ piece → c ≠ '\\' ∧ c ≠ Text.microSign
  few : tokens.length ≤ piece.length
  onward : ∀ rest, Closes rest → ∀ count,
    scanWithin results (count + tokens.length) (piece ++ rest) =
      (scanWithin results count rest).map (tokens ++ ·)

theorem scanWithin_succ {results : Nat} {text rest : List Char} {token : Token}
    (starts : ∃ c after, text = c :: after ∧ Text.isBlank c = false)
    (first : scanOne results text = .ok (token, rest)) (count : Nat) :
    scanWithin results (count + 1) text = (scanWithin results count rest).map (token :: ·) := by
  obtain ⟨c, after, rfl, noBlank⟩ := starts
  simp only [scanWithin, Text.trimStart_of_noBlank noBlank, first]
  change (scanWithin results count rest >>= _) = _
  cases scanWithin results count rest <;> rfl

theorem scanWithin_blank (results count : Nat) (text : List Char) :
    scanWithin results count (' ' :: text) = scanWithin results count text := by
  cases count with
  | zero => rfl
  | succ count =>
      have trimmed : Text.trimStart (' ' :: text) = Text.trimStart text := rfl
      simp only [scanWithin, trimmed]

variable {results : Nat} {piece first second : List Char} {tokens left right : List Token}

theorem Scans.lexeme {token : Token} (starts : ∃ c rest, piece = c :: rest ∧ c ≠ '>' ∧ Text.isBlank c = false)
    (noEscape : ∀ c, c ∈ piece → c ≠ '\\' ∧ c ≠ Text.microSign)
    (scanned : ∀ rest, Closes rest → scanOne results (piece ++ rest) = .ok (token, rest)) :
    Scans results piece [token] := by
  obtain ⟨c, later, isPiece, noArrow, noBlank⟩ := starts
  refine ⟨⟨c, later, isPiece, noArrow, noBlank⟩, noEscape, ?_, fun rest closes count => ?_⟩
  · rw [isPiece]
    exact Nat.succ_le_succ (Nat.zero_le _)
  · refine scanWithin_succ ⟨c, later ++ rest, ?_, noBlank⟩ (scanned rest closes) count
    rw [isPiece, List.cons_append]

/-- A minus sign stands for itself where it does not start the arrow that introduces a unit. -/
theorem scanOne_minus {text : List Char} (noArrow : text.head? ≠ some '>') (results : Nat) :
    scanOne results ('-' :: text) = .ok (.operator .subtract, text) := by
  rw [scanOne]
  intro after isArrow
  rw [isArrow] at noArrow
  exact noArrow rfl

theorem Scans.minus (scans : Scans results piece tokens) :
    Scans results ('-' :: piece) (.operator .subtract :: tokens) := by
  obtain ⟨⟨c, later, isPiece, noArrow, noBlank⟩, noEscape, few, onward⟩ := scans
  refine ⟨⟨'-', piece, rfl, by decide, by decide⟩, ?_, Nat.succ_le_succ few, fun rest closes count => ?_⟩
  · intro other member
    rcases List.mem_cons.mp member with same | inPiece
    · rw [same]
      decide
    · exact noEscape other inPiece
  · have sign : scanOne results ('-' :: (piece ++ rest)) = .ok (.operator .subtract, piece ++ rest) := by
      refine scanOne_minus (fun isArrow => noArrow ?_) results
      rw [isPiece] at isArrow
      exact Option.some.inj isArrow
    rw [List.cons_append, List.length_cons, ← Nat.add_assoc,
      scanWithin_succ ⟨'-', _, rfl, by decide⟩ sign, onward rest closes count]
    cases scanWithin results count rest <;> rfl

theorem Scans.group (scans : Scans results piece tokens) :
    Scans results ('(' :: (piece ++ [')'])) (.leftParen :: (tokens ++ [.rightParen])) := by
  obtain ⟨_, noEscape, few, onward⟩ := scans
  refine ⟨⟨'(', _, rfl, by decide, by decide⟩, ?_, ?_, fun rest closes count => ?_⟩
  · intro other member
    rcases List.mem_cons.mp member with same | later
    · rw [same]
      decide
    · rcases List.mem_append.mp later with inPiece | last
      · exact noEscape other inPiece
      · rw [List.mem_singleton.mp last]
        decide
  · simp only [List.length_cons, List.length_append]
    omega
  · have split : '(' :: (piece ++ [')']) ++ rest = '(' :: (piece ++ ')' :: rest) := by
      rw [List.cons_append, List.append_assoc]
      rfl
    have count' : count + (Token.leftParen :: (tokens ++ [.rightParen])).length =
        count + 1 + tokens.length + 1 := by
      simp only [List.length_cons, List.length_append, List.length_nil]
      omega
    have opening : scanOne results ('(' :: (piece ++ ')' :: rest)) = .ok (.leftParen, piece ++ ')' :: rest) :=
      rfl
    have closing : scanOne results (')' :: rest) = .ok (.rightParen, rest) := rfl
    rw [split, count', scanWithin_succ ⟨'(', _, rfl, by decide⟩ opening, onward _ (.paren rest),
      scanWithin_succ ⟨')', _, rfl, by decide⟩ closing]
    cases scanWithin results count rest with
    | error cause => rfl
    | ok found => simp only [Except.map, List.cons_append, List.append_assoc, List.nil_append]

/-- Two operands with an operator between them. -/
theorem Scans.join (firstScans : Scans results first left) (operator : Operator)
    (secondScans : Scans results second right) :
    Scans results (first ++ ' ' :: (operator.symbol.toList ++ ' ' :: second))
      (left ++ .operator operator :: right) := by
  obtain ⟨⟨c, later, isFirst, noArrow, noBlank⟩, noEscape, few, onward⟩ := firstScans
  obtain ⟨_, secondNoEscape, secondFew, secondOnward⟩ := secondScans
  have symbol : ∃ c rest, operator.symbol.toList = c :: rest ∧ Text.isBlank c = false := by
    cases operator <;> exact ⟨_, _, rfl, rfl⟩
  refine ⟨⟨c, _, by rw [isFirst, List.cons_append], noArrow, noBlank⟩, ?_, ?_, fun rest closes count => ?_⟩
  · have symbolNoEscape : ∀ c, c ∈ operator.symbol.toList → c ≠ '\\' ∧ c ≠ Text.microSign := by
      intro c member
      have each : (operator.symbol.toList.all fun c => c != '\\' && c != Text.microSign) = true := by
        cases operator <;> decide
      have plain := List.all_eq_true.mp each c member
      rwa [Bool.and_eq_true, bne_iff_ne, bne_iff_ne] at plain
    intro other member
    rcases List.mem_append.mp member with inFirst | inRest
    · exact noEscape other inFirst
    · rcases List.mem_cons.mp inRest with isBlank | inRest
      · rw [isBlank]
        decide
      · rcases List.mem_append.mp inRest with inSymbol | inRest
        · exact symbolNoEscape other inSymbol
        · rcases List.mem_cons.mp inRest with isBlank | inSecond
          · rw [isBlank]
            decide
          · exact secondNoEscape other inSecond
  · simp only [List.length_cons, List.length_append]
    omega
  · have split : first ++ ' ' :: (operator.symbol.toList ++ ' ' :: second) ++ rest =
        first ++ ' ' :: (operator.symbol.toList ++ ' ' :: (second ++ rest)) := by
      simp only [List.append_assoc, List.cons_append]
    have count' : count + (left ++ Token.operator operator :: right).length =
        count + right.length + 1 + left.length := by
      simp only [List.length_cons, List.length_append]
      omega
    have between : scanOne results (operator.symbol.toList ++ ' ' :: (second ++ rest)) =
        .ok (.operator operator, ' ' :: (second ++ rest)) := by
      cases operator <;> rfl
    obtain ⟨mark, others, isSymbol, markNoBlank⟩ := symbol
    rw [split, count', onward _ (.operator operator (second ++ rest)), scanWithin_blank,
      scanWithin_succ ⟨mark, others ++ ' ' :: (second ++ rest), by rw [isSymbol, List.cons_append],
        markNoBlank⟩ between, scanWithin_blank, secondOnward rest closes]
    cases scanWithin results count rest with
    | error cause => rfl
    | ok found => simp only [Except.map, List.append_assoc, List.cons_append]

theorem resolveEscapes_of_noEscape {text : List Char}
    (noEscape : ∀ c, c ∈ text → c ≠ '\\' ∧ c ≠ Text.microSign) : Text.resolveEscapes text = .ok text := by
  induction text with
  | nil => rfl
  | cons c rest ih =>
      obtain ⟨noBackslash, noMicro⟩ := noEscape c List.mem_cons_self
      have later := ih fun other member => noEscape other (List.mem_cons_of_mem _ member)
      rw [Text.resolveEscapes, later, if_neg noMicro]
      · rfl
      · exact fun isBackslash _ => noBackslash isBackslash
      · exact fun letter others isBackslash _ => noBackslash isBackslash

/-- A whole text is scanned as its lexemes. -/
theorem Scans.scan {line : String} (scans : Scans results line.toList tokens) :
    scan results line = .ok tokens := by
  obtain ⟨_, noEscape, few, onward⟩ := scans
  -- each lexeme takes a character, so the length of the text is enough
  have nothing : ∀ count, scanWithin results count [] = .ok [] := by
    intro count
    cases count <;> rfl
  have whole := onward [] .finish (line.toList.length - tokens.length)
  rw [Nat.sub_add_cancel few, List.append_nil, nothing] at whole
  unfold Token.scan
  rw [resolveEscapes_of_noEscape noEscape]
  refine whole.trans ?_
  exact congrArg Except.ok (List.append_nil tokens)

/-! ### Operands on their own -/

private theorem code_of_isSubscript {c : Char} (subscript : isSubscript c = true) :
    (48 ≤ c.toNat ∧ c.toNat ≤ 57) ∨ (65 ≤ c.toNat ∧ c.toNat ≤ 90) ∨ (97 ≤ c.toNat ∧ c.toNat ≤ 122) ∨
      (0x370 ≤ c.toNat ∧ c.toNat ≤ 0x3FF) := by
  rcases Bool.or_eq_true_iff.mp subscript with ascii | greek
  · rcases Bool.or_eq_true_iff.mp ascii with alpha | digit
    · rcases Bool.or_eq_true_iff.mp alpha with upper | lower
      · have between : c.val ≥ 'A'.val ∧ c.val ≤ 'Z'.val := of_decide_eq_true upper
        exact Or.inr (Or.inl ⟨UInt32.le_iff_toNat_le.mp between.1, UInt32.le_iff_toNat_le.mp between.2⟩)
      · have between : c.val ≥ 'a'.val ∧ c.val ≤ 'z'.val :=
          (Bool.and_eq_true_iff.mp lower).imp of_decide_eq_true of_decide_eq_true
        exact Or.inr (Or.inr (Or.inl ⟨UInt32.le_iff_toNat_le.mp between.1,
          UInt32.le_iff_toNat_le.mp between.2⟩))
    · exact Or.inl (Char.isDigit_iff_toNat.mp digit)
  · obtain ⟨above, below⟩ := Bool.and_eq_true_iff.mp greek
    exact Or.inr (Or.inr (Or.inr ⟨of_decide_eq_true above, of_decide_eq_true below⟩))

/-- The characters of names and numbers are no blanks, and stand for themselves. -/
theorem plain_of_isSubscript {c : Char} (subscript : isSubscript c = true) :
    c ≠ '>' ∧ Text.isBlank c = false ∧ c ≠ '\\' ∧ c ≠ Text.microSign := by
  have code := code_of_isSubscript subscript
  refine ⟨?_, ?_, ?_, ?_⟩
  · rintro rfl
    revert code
    decide
  · rw [Bool.eq_false_iff]
    intro blank
    simp only [Text.isBlank, Bool.or_eq_true, Bool.and_eq_true, decide_eq_true_eq, beq_iff_eq] at blank
    omega
  · rintro rfl
    revert code
    decide
  · rintro rfl
    revert code
    decide

theorem isSubscript_of_isLetter {c : Char} (letter : isLetter c = true) : isSubscript c = true := by
  rcases Bool.or_eq_true_iff.mp letter with latin | greek
  · rw [isSubscript, latin, Bool.true_or, Bool.true_or]
  · rw [isSubscript, greek, Bool.or_true]

theorem isSubscript_of_isDigit {c : Char} (digit : c.isDigit = true) : isSubscript c = true := by
  rw [isSubscript, digit, Bool.or_true, Bool.true_or]

private theorem noEscape_of_isNameText {text : List Char} (isName : IsNameText text) :
    ∀ c, c ∈ text → c ≠ '\\' ∧ c ≠ Text.microSign := by
  intro c member
  rcases eq_of_takeName isName.whole with all | ⟨letters, subscript, rfl, _, all, allAfter⟩
  · exact (plain_of_isSubscript (isSubscript_of_isLetter (all c member))).2.2
  · rcases List.mem_append.mp member with inLetters | inRest
    · exact (plain_of_isSubscript (isSubscript_of_isLetter (all c inLetters))).2.2
    · rcases List.mem_cons.mp inRest with isLine | inSubscript
      · rw [isLine]
        decide
      · exact (plain_of_isSubscript (allAfter c inSubscript)).2.2

theorem Scans.name {name : String} (isName : IsNameText name.toList) (results : Nat) :
    Scans results name.toList [.var name] := by
  obtain ⟨c, later, isText, letter⟩ := isName.starts
  have plain := plain_of_isSubscript (isSubscript_of_isLetter letter)
  refine .lexeme ⟨c, later, isText, plain.1, plain.2.1⟩ (noEscape_of_isNameText isName) fun rest closes => ?_
  have taken := takeName_of_stops isName.whole (closes.stops (by decide) (by decide))
    (closes.head?_ne (by decide) (by decide)) (closes.stops (by decide) (by decide))
  have noWord : (name.toList = ['a', 's'] && !rest.head?.any marksName) = false := by
    rw [decide_eq_false isName.noWord, Bool.false_and]
  have scanned : scanName (name.toList ++ rest) = .ok (.var name, rest) := by
    unfold scanName
    rw [taken]
    dsimp only
    rw [noWord, if_neg Bool.false_ne_true, String.ofList_toList]
  rw [← scanned, isText, List.cons_append, scanOne_of_not_mem_marks (not_mem_marks_of_isLetter letter),
    if_pos letter]

theorem isDigit_of_mem_toDigits {n : Nat} : ∀ c, c ∈ Nat.toDigits 10 n → c.isDigit = true :=
  fun _ member => Nat.isDigit_of_mem_toDigits (by decide) (by decide) member

theorem Scans.output {results index : Nat} (positive : 0 < index) (stored : index ≤ results)
    (fits : index ≤ greatestIndex) :
    Scans results ('[' :: (Nat.toDigits 10 index ++ [']'])) [.output index] := by
  refine .lexeme ⟨'[', _, rfl, by decide, by decide⟩ ?_ fun rest _ => ?_
  · intro c member
    rcases List.mem_cons.mp member with same | later
    · rw [same]
      decide
    · rcases List.mem_append.mp later with inDigits | last
      · exact (plain_of_isSubscript (isSubscript_of_isDigit (isDigit_of_mem_toDigits c inDigits))).2.2
      · rw [List.mem_singleton.mp last]
        decide
  · have stops : Stops Char.isDigit (']' :: rest) := by
      intro c isHead
      rw [← Option.some.inj isHead]
      rfl
    have split : '[' :: (Nat.toDigits 10 index ++ [']']) ++ rest =
        '[' :: (Nat.toDigits 10 index ++ ']' :: rest) := by
      rw [List.cons_append, List.append_assoc]
      rfl
    have inRange : (decide (index = 0) || decide (results < index)) = false := by
      rw [decide_eq_false (by omega), decide_eq_false (by omega)]
      rfl
    have scanned : scanOutput results (Nat.toDigits 10 index ++ ']' :: rest) = .ok (.output index, rest) := by
      unfold scanOutput
      rw [takeWhile_append isDigit_of_mem_toDigits stops, dropWhile_append isDigit_of_mem_toDigits stops,
        Text.readNat?_toDigits]
      change (if greatestIndex < index then _
        else if decide (index = 0) || decide (results < index) then _ else _) = _
      rw [if_neg (Nat.not_lt.mpr fits), inRange, if_neg Bool.false_ne_true]
    rw [split]
    exact scanned

/-! ### Numbers on their own -/

structure IsNumeral (digits : List Char) (n : Nat) : Prop where
  nonempty : digits ≠ []
  decimal : ∀ c, c ∈ digits → c.isDigit = true
  value : Nat.ofDigitChars 10 digits 0 = n

theorem IsNumeral.toDigits (n : Nat) : IsNumeral (Nat.toDigits 10 n) n where
  nonempty := Nat.toDigits_ne_nil
  decimal := isDigit_of_mem_toDigits
  value := Nat.ofDigitChars_ten_toDigits

variable {digits others : List Char} {n d : Nat}

theorem IsNumeral.starts (numeral : IsNumeral digits n) :
    ∃ c later, digits = c :: later ∧ c.isDigit = true := by
  obtain ⟨c, later, isDigits⟩ := List.exists_cons_of_ne_nil numeral.nonempty
  exact ⟨c, later, isDigits, numeral.decimal c (isDigits ▸ List.mem_cons_self)⟩

theorem IsNumeral.noEscape (numeral : IsNumeral digits n) :
    ∀ c, c ∈ digits → c ≠ '\\' ∧ c ≠ Text.microSign :=
  fun c member => (plain_of_isSubscript (isSubscript_of_isDigit (numeral.decimal c member))).2.2

private theorem IsNumeral.not_mem (numeral : IsNumeral digits n) {c : Char} (noDigit : c.isDigit = false) :
    c ∉ digits := by
  intro member
  rw [numeral.decimal c member] at noDigit
  cases noDigit

private theorem trim_of_noBlank {text : List Char} (noBlank : ∀ c, c ∈ text → Text.isBlank c = false) :
    Text.trim text = text := by
  have dropped : ∀ {text : List Char}, (∀ c, c ∈ text → Text.isBlank c = false) →
      text.dropWhile Text.isBlank = text := by
    intro text noBlank
    cases text with
    | nil => rfl
    | cons c rest => rw [List.dropWhile_cons, noBlank c List.mem_cons_self, if_neg Bool.false_ne_true]
  rw [Text.trim, Text.trimStart, dropped noBlank, Text.trimEnd,
    dropped fun c member => noBlank c (List.mem_reverse.mp member), List.reverse_reverse]

theorem IsNumeral.trim (numeral : IsNumeral digits n) : Text.trim digits = digits :=
  trim_of_noBlank fun c member => (plain_of_isSubscript (isSubscript_of_isDigit (numeral.decimal c member))).2.1

theorem IsNumeral.readGroupedInt? (numeral : IsNumeral digits n) :
    Text.readGroupedInt? digits = some (n : Int) := by
  have noLine : digits.filter (· != '_') = digits := by
    apply List.filter_eq_self.mpr
    intro c member
    apply bne_iff_ne.mpr
    rintro rfl
    exact numeral.not_mem rfl member
  have read : Text.readNat? digits = some n := by
    have all := List.all_eq_true.mpr numeral.decimal
    rw [Text.readNat?, List.isEmpty_eq_false_iff.mpr numeral.nonempty, all, numeral.value]
    rfl
  have grouped : Text.readGroupedNat? digits = some n := by
    unfold Text.readGroupedNat?
    split
    · exact absurd List.mem_cons_self (numeral.not_mem rfl)
    · rw [noLine, read]
  unfold Text.readGroupedInt?
  split
  · exact absurd List.mem_cons_self (numeral.not_mem rfl)
  · exact absurd List.mem_cons_self (numeral.not_mem rfl)
  · rw [grouped]
    rfl

theorem ofLiteral?_whole (numeral : IsNumeral digits n) : Number.ofLiteral? digits = some (.exact n) := by
  have absent : ∀ {c : Char}, c.isDigit = false → digits.contains c = false := by
    intro c noDigit
    exact Bool.eq_false_iff.mpr fun found => numeral.not_mem noDigit (List.contains_iff_mem.mp found)
  unfold Number.ofLiteral?
  rw [absent rfl, if_neg Bool.false_ne_true, absent rfl, if_neg Bool.false_ne_true, numeral.readGroupedInt?]
  rfl

theorem ofLiteral?_ratio (numerator : IsNumeral digits n) (denominator : IsNumeral others d) :
    Number.ofLiteral? (digits ++ '/' :: others) =
      if d = 0 then none else some (.exact ((n : Rat) / (d : Rat))) := by
  have hasStroke : (digits ++ '/' :: others).contains '/' = true :=
    List.contains_iff_mem.mpr (List.mem_append_right _ List.mem_cons_self)
  have before : ∀ c, c ∈ digits → (c != '/') = true := by
    intro c member
    apply bne_iff_ne.mpr
    rintro rfl
    exact numerator.not_mem rfl member
  have stops : Stops (· != '/') ('/' :: others) := by
    intro c isHead
    rw [← Option.some.inj isHead]
    rfl
  have behind : ('/' :: others).drop 1 = others := rfl
  unfold Number.ofLiteral?
  rw [hasStroke, if_pos rfl, takeWhile_append before stops, dropWhile_append before stops, behind,
    numerator.trim, denominator.trim, numerator.readGroupedInt?, denominator.readGroupedInt?]
  change (if (d : Int) = 0 then none else some _) = _
  by_cases zero : d = 0
  · rw [if_pos (by omega), if_pos zero]
  · rw [if_neg (by omega), if_neg zero]
    rfl

structure IsLiteral (digits : List Char) (number : Number) : Prop where
  starts : ∃ c later, digits = c :: later ∧ c.isDigit = true
  noEscape : ∀ c, c ∈ digits → c ≠ '\\' ∧ c ≠ Text.microSign
  taken : ∀ rest, Stops Char.isDigit rest → rest.head? ≠ some '/' → rest.head? ≠ some '.' →
    takeNumber (digits ++ rest) = (digits, rest)
  read : Number.ofLiteral? digits = some number

theorem IsLiteral.whole (numeral : IsNumeral digits n) : IsLiteral digits (.exact n) where
  starts := numeral.starts
  noEscape := numeral.noEscape
  taken _ stops noStroke noPoint :=
    takeNumber_whole numeral.nonempty numeral.decimal stops
      (fun _ isStroke => absurd (congrArg List.head? isStroke) noStroke) noPoint
  read := ofLiteral?_whole numeral

theorem IsLiteral.ratio (numerator : IsNumeral digits n) (denominator : IsNumeral others d)
    (nonzero : d ≠ 0) : IsLiteral (digits ++ '/' :: others) (.exact ((n : Rat) / (d : Rat))) where
  starts := by
    obtain ⟨c, later, isDigits, digit⟩ := numerator.starts
    exact ⟨c, later ++ '/' :: others, by rw [isDigits, List.cons_append], digit⟩
  noEscape := by
    intro c member
    rcases List.mem_append.mp member with inNumerator | inRest
    · exact numerator.noEscape c inNumerator
    · rcases List.mem_cons.mp inRest with isStroke | inDenominator
      · rw [isStroke]
        decide
      · exact denominator.noEscape c inDenominator
  taken rest stops _ _ := by
    rw [List.append_assoc, List.cons_append]
    exact takeNumber_ratio numerator.nonempty numerator.decimal denominator.nonempty denominator.decimal stops
  read := (ofLiteral?_ratio numerator denominator).trans (if_neg nonzero)

/-- An exact number is written as a literal. -/
theorem isLiteral_ratioText {r : Rat} (nonnegative : 0 ≤ r) :
    IsLiteral (Scientific.ratioText r).toList (.exact r) := by
  obtain ⟨n, isNumerator⟩ := Int.eq_ofNat_of_zero_le (Rat.num_nonneg.mpr nonnegative)
  have numerator : (Int.repr r.num).toList = Nat.toDigits 10 n := by
    rw [Text.toList_repr, isNumerator, if_pos (Int.natCast_nonneg n), Int.toNat_natCast]
  unfold Scientific.ratioText
  split
  · rename_i whole
    have isWhole : (n : Rat) = r := by
      rw [← Rat.coe_int_num_of_den_eq_one whole, isNumerator]
      rfl
    have literal := IsLiteral.whole (.toDigits n)
    rwa [← numerator, isWhole] at literal
  · have isRatio : (n : Rat) / (r.den : Rat) = r := by
      conv => rhs; rw [← Rat.num_div_den r, isNumerator]
      rfl
    have written : (Int.repr r.num ++ "/" ++ Nat.repr r.den).toList =
        Nat.toDigits 10 n ++ '/' :: Nat.toDigits 10 r.den := by
      rw [String.toList_append, String.toList_append, numerator, Nat.repr_eq_ofList_toDigits,
        List.append_assoc, String.toList_ofList, String.toList_ofList]
      rfl
    have literal := IsLiteral.ratio (.toDigits n) (.toDigits r.den) r.den_nz
    rwa [← written, isRatio] at literal

theorem scanOne_of_isLiteral {digits : List Char} {number : Number} (literal : IsLiteral digits number)
    (results : Nat) (rest : List Char) : scanOne results (digits ++ rest) = scanLiteral (digits ++ rest) := by
  obtain ⟨c, later, isDigits, digit⟩ := literal.starts
  obtain ⟨noMark, noLetter⟩ := plain_of_isDigit digit
  rw [isDigits, List.cons_append, scanOne_of_not_mem_marks noMark, noLetter, if_neg Bool.false_ne_true]

/-- A number is read, and then the unit behind it. -/
theorem scanLiteral_append {digits rest : List Char} {number : Number} (literal : IsLiteral digits number)
    (stops : Stops Char.isDigit rest) (noStroke : rest.head? ≠ some '/') (noPoint : rest.head? ≠ some '.') :
    scanLiteral (digits ++ rest) =
      match takeSuffix? rest with
      | none => .ok (.quantity (Quantity.ofNumber number), rest)
      | some (unit, after) =>
        (Measure.read (Text.trim unit)).map fun measure =>
          (.quantity { magnitude := number * measure.factor, dimension := measure.dimension }, after) := by
  obtain ⟨c, later, isDigits, _⟩ := literal.starts
  have nonempty : digits.isEmpty = false := by
    rw [isDigits]
    rfl
  have isRead := literal.read
  unfold scanLiteral
  rw [literal.taken rest stops noStroke noPoint]
  dsimp only
  rw [nonempty, if_neg Bool.false_ne_true]
  generalize Number.ofLiteral? digits = found at isRead ⊢
  subst isRead
  rfl

theorem Scans.literal {digits : List Char} {number : Number} (literal : IsLiteral digits number)
    (results : Nat) : Scans results digits [.quantity (.ofNumber number)] := by
  obtain ⟨c, later, isDigits, digit⟩ := literal.starts
  have plain := plain_of_isSubscript (isSubscript_of_isDigit digit)
  refine .lexeme ⟨c, later, isDigits, plain.1, plain.2.1⟩ literal.noEscape fun rest closes => ?_
  rw [scanOne_of_isLiteral literal, scanLiteral_append literal (closes.stops rfl rfl)
    (closes.head?_ne (by decide) (by decide)) (closes.head?_ne (by decide) (by decide)), closes.takeSuffix?]

end QuantityCalculator.Token
