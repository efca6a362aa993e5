import QuantityCalculator.Expression.Reading
import QuantityCalculator.Proofs.Except
import QuantityCalculator.Proofs.Formula.Grammar
import QuantityCalculator.Proofs.Formula.Regular

/-!
Reading by descent and reading position by position.

The descent reads from the front of the lexemes what the grammar derives there, in normal form.  Where it fails,
reading position by position fails for the same cause, whatever has been read before and whatever groups are still
open.  So the two agree on all lexemes.
-/

namespace QuantityCalculator

namespace Expression

/-! ### The members of each precedence -/

private theorem readMember_of_tighter? {precedence tighter : Precedence} (found : precedence.tighter? = some tighter)
    (inGroup : Bool) (leading : Option Expression) (tokens : List Token) :
    readMember precedence inGroup leading tokens = readChain tighter inGroup false leading tokens := by
  cases precedence <;> cases found
  · rw [readMember]
    rfl
  · rw [readMember]
    rfl

private theorem readMember_power (inGroup : Bool) (leading : Option Expression) (tokens : List Token) :
    readMember .power inGroup leading tokens = readOperand leading tokens := by
  rw [readMember]
  rfl

/-! ### The leading expression -/

/-- What reading hands on: the expression, the leading one if it waits, and the lexemes that follow. -/
def Front.parts {tokens : List Token} (front : Front tokens) : Expression × Option Expression × List Token :=
  (front.expression, front.leading, front.rest)

variable {token : Token} {tokens other : List Token} {leading second : Option Expression} {expression : Expression}

private theorem map_parts_within {outcome : Except ReadError (Front tokens)}
    (shorter : tokens.length ≤ other.length) :
    (do let whole ← outcome; return whole.within shorter).map Front.parts = outcome.map Front.parts := by
  cases outcome <;> rfl

/-- How a chain is read is settled by how its first member is. -/
theorem readChain_congr {precedence : Precedence} {inGroup : Bool} (closes : Bool)
    (same : (readMember precedence inGroup leading tokens).map Front.parts =
      (readMember precedence inGroup second other).map Front.parts) :
    (readChain precedence inGroup closes leading tokens).map Front.parts =
      (readChain precedence inGroup closes second other).map Front.parts := by
  rw [readChain, readChain]
  cases here : readMember precedence inGroup leading tokens with
  | error cause =>
      cases there : readMember precedence inGroup second other with
      | error cause' =>
          rw [here, there] at same
          cases same
          rfl
      | ok front =>
          rw [here, there] at same
          cases same
  | ok front =>
      cases there : readMember precedence inGroup second other with
      | error cause =>
          rw [here, there] at same
          cases same
      | ok front' =>
          rw [here, there] at same
          have parts : front.parts = front'.parts := Except.ok.inj same
          obtain ⟨isExpression, isLeading, isRest⟩ :
              front.expression = front'.expression ∧ front.leading = front'.leading ∧ front.rest = front'.rest := by
            simpa only [Front.parts, Prod.mk.injEq] using parts
          refine (map_parts_within front.length_le).trans (Eq.trans ?_ (map_parts_within front'.length_le).symm)
          rw [isExpression, isLeading, isRest]

/-- The leading expression is the first operand, and that one alone: reading goes on as if it were written in front
of the lexemes, in a chain of any precedence. -/
theorem readChain_leading
    (written : (readOperand none (token :: tokens)).map Front.parts = .ok (expression, none, tokens))
    (precedence : Precedence) (inGroup closes : Bool) :
    (readChain precedence inGroup closes (some expression) tokens).map Front.parts =
      (readChain precedence inGroup closes none (token :: tokens)).map Front.parts := by
  have operand : (readMember .power inGroup (some expression) tokens).map Front.parts =
      (readMember .power inGroup none (token :: tokens)).map Front.parts := by
    rw [readMember_power, readMember_power, written, readOperand]
    rfl
  have power : (readMember .product inGroup (some expression) tokens).map Front.parts =
      (readMember .product inGroup none (token :: tokens)).map Front.parts := by
    rw [readMember_of_tighter? rfl, readMember_of_tighter? rfl]
    exact readChain_congr false operand
  have product : (readMember .sum inGroup (some expression) tokens).map Front.parts =
      (readMember .sum inGroup none (token :: tokens)).map Front.parts := by
    rw [readMember_of_tighter? rfl, readMember_of_tighter? rfl]
    exact readChain_congr false power
  cases precedence with
  | sum => exact readChain_congr closes product
  | product => exact readChain_congr closes power
  | power => exact readChain_congr closes operand

theorem ofTokens_leading
    (written : (readOperand none (token :: tokens)).map Front.parts = .ok (expression, none, tokens)) :
    ofTokens (some expression) tokens = ofTokens none (token :: tokens) := by
  have whole : ∀ leading tokens, ofTokens leading tokens =
      ((readChain .sum false false leading tokens).map Front.parts).map Prod.fst := by
    intro leading tokens
    rw [ofTokens]
    cases readChain .sum false false leading tokens <;> rfl
  rw [whole, whole, readChain_leading written]

end Expression

namespace Formula

open Expression (Front readChain readSteps readMember readOperand assemble joinSteps)

/-! ### Operands joined by operators of one precedence -/

private theorem Level.made_of_tighter? {precedence tighter : Precedence} (found : precedence.tighter? = some tighter) :
    Level.made tighter = Level.joined precedence := by
  cases precedence <;> cases found <;> rfl

def joinFromRight (first : Formula) : Tail → Formula
  | [] => first
  | (operator, next) :: rest => .binary operator first (joinFromRight next rest)

def joinAll (first : Formula) (tail : Tail) : Precedence → Formula
  | .power => joinFromRight first tail
  | .sum | .product => joinFromLeft first tail

variable {precedence : Precedence} {first : Formula} {tail : Tail} {before after : List Token}

private theorem eq_raise_of_precedence {operator : Operator} (isPower : operator.precedence = .power) :
    operator = .raise := by
  cases operator <;> first | rfl | cases isPower

private theorem joinFromRight_derives (single : ∀ step, step ∈ tail → step.1.precedence = .power)
    (firstWritten : Derives .operand before first) (spelled : Spells .operand tail after) :
    Derives .power (before ++ after) (joinFromRight first tail) := by
  induction spelled generalizing first before with
  | nil =>
      rw [List.append_nil]
      exact .power firstWritten
  | @cons operator next tail nextTokens tailTokens nextWritten _ ih =>
      have isRaise := eq_raise_of_precedence (single (operator, next) List.mem_cons_self)
      subst isRaise
      exact .raise firstWritten (ih (fun step member => single step (List.mem_cons_of_mem _ member)) nextWritten)

private theorem joinAll_derives (single : ∀ step, step ∈ tail → step.1.precedence = precedence)
    (firstWritten : Derives (Level.joined precedence) before first)
    (spelled : Spells (Level.joined precedence) tail after) :
    Derives (Level.made precedence) (before ++ after) (joinAll first tail precedence) := by
  cases precedence with
  | sum => exact joinFromLeft_derives .add (.sum firstWritten) spelled single
  | product => exact joinFromLeft_derives .multiply (.product firstWritten) spelled single
  | power => exact joinFromRight_derives single firstWritten spelled

private theorem towerOperands_of_derives (written : Derives .operand before first) :
    first.towerOperands = [first.normalize] := by
  refine towerOperands_eq fun base exponent isRaise => ?_
  subst isRaise
  cases written

private theorem towerOperands_joinFromRight (single : ∀ step, step ∈ tail → step.1.precedence = .power)
    (firstWritten : Derives .operand before first) (spelled : Spells .operand tail after) :
    (joinFromRight first tail).towerOperands = first.normalize :: tail.map (·.2.normalize) := by
  induction spelled generalizing first before with
  | nil => exact towerOperands_of_derives firstWritten
  | @cons operator next tail nextTokens tailTokens nextWritten _ ih =>
      have isRaise := eq_raise_of_precedence (single (operator, next) List.mem_cons_self)
      subst isRaise
      have later := ih (fun step member => single step (List.mem_cons_of_mem _ member)) nextWritten
      rw [joinFromRight, towerOperands, later, List.map_cons]

/-- What joined operands make in normal form is what their normal forms make. -/
theorem normalize_joinAll (single : ∀ step, step ∈ tail → step.1.precedence = precedence)
    (firstWritten : Derives (Level.joined precedence) before first)
    (spelled : Spells (Level.joined precedence) tail after) :
    (joinAll first tail precedence).normalize =
      assemble first.normalize (tail.map fun step => (step.1, step.2.normalize)) precedence := by
  cases precedence with
  | sum => exact normalize_joinFromLeft (by decide) single first
  | product => exact normalize_joinFromLeft (by decide) single first
  | power =>
      cases spelled with
      | nil => rfl
      | @cons operator next tail nextTokens tailTokens nextWritten spelled =>
          have isRaise := eq_raise_of_precedence (single (operator, next) List.mem_cons_self)
          subst isRaise
          have later := towerOperands_joinFromRight
            (fun step member => single step (List.mem_cons_of_mem _ member)) nextWritten spelled
          change Expression.tower (first.normalize :: (joinFromRight next tail).towerOperands) = _
          rw [later, assemble, List.map_cons, List.map_cons, List.map_map]
          rfl

/-! ### What the descent finds -/

def closing (closes : Bool) : List Token :=
  if closes then [.rightParen] else []

/-- Lexemes that a chain of a precedence ends in front of. -/
def Stops (precedence : Precedence) (inGroup : Bool) : List Token → Prop
  | [] => True
  | .rightParen :: _ => inGroup = true
  | .operator operator :: _ => operator.precedence.rank < precedence.rank
  | _ => False

/-- Lexemes that do not start with an operator that binds tighter than a precedence. -/
def Loose (precedence : Precedence) (tokens : List Token) : Prop :=
  ∀ operator rest, tokens = .operator operator :: rest → operator.precedence.rank ≤ precedence.rank

/-- The descent has taken from the front of the lexemes what the grammar derives, and the parenthesis behind it. -/
structure Taken (level : Level) (closes : Bool) {tokens : List Token} (front : Front tokens) : Prop where
  used : front.leading = none
  derived : ∃ written formula, tokens = written ++ (closing closes ++ front.rest) ∧ Derives level written formula ∧
    formula.normalize = front.expression

/-- The descent has taken a tail of operands besides those that had been read. -/
structure TakenBehind (precedence : Precedence) (closes : Bool) (first : Expression)
    (steps : List (Operator × Expression)) {tokens : List Token} (front : Front tokens) : Prop where
  used : front.leading = none
  spelled : ∃ written tail, tokens = written ++ (closing closes ++ front.rest) ∧
    Spells (Level.joined precedence) tail written ∧ (∀ step, step ∈ tail → step.1.precedence = precedence) ∧
      front.expression = assemble first (steps ++ tail.map fun step => (step.1, step.2.normalize)) precedence

/-- Reading on in front of an operand fails, whatever has been read before. -/
def Refuses (inGroup : Bool) (tokens : List Token) (cause : ReadError) : Prop :=
  ∀ (enclosing : List Partial) (read : List (Formula × Operator)), inGroup = !enclosing.isEmpty →
    Formula.readOperand enclosing { read, signs := 0 } tokens = .error cause

/-- Reading on behind an operand fails, whatever has been read before. -/
def RefusesBehind (inGroup : Bool) (tokens : List Token) (cause : ReadError) : Prop :=
  ∀ (enclosing : List Partial) (read : List (Formula × Operator)) (last : Formula),
    inGroup = !enclosing.isEmpty → readOperator enclosing read last tokens = .error cause

variable {inGroup closes : Bool} {leading : Option Expression} {tokens : List Token}

/-- A chain that is read without a leading expression is taken from the front, up to where it has to stop. -/
def ChainSettles (precedence : Precedence) (inGroup closes : Bool) (leading : Option Expression)
    (tokens : List Token) : Prop :=
  leading = none → (closes = true → precedence = .sum ∧ inGroup = true) →
    Settles (fun front => Taken (Level.made precedence) closes front ∧
        (closes = false → Stops precedence inGroup front.rest))
      (Refuses inGroup tokens) (readChain precedence inGroup closes leading tokens)

def StepsSettle (precedence : Precedence) (inGroup closes : Bool) (first : Expression)
    (steps : List (Operator × Expression)) (leading : Option Expression) (tokens : List Token) : Prop :=
  leading = none → (closes = true → precedence = .sum ∧ inGroup = true) → Loose precedence tokens →
    Settles (fun front => TakenBehind precedence closes first steps front ∧
        (closes = false → Stops precedence inGroup front.rest))
      (RefusesBehind inGroup tokens) (readSteps precedence inGroup closes first steps leading tokens)

def MemberSettles (precedence : Precedence) (inGroup : Bool) (leading : Option Expression)
    (tokens : List Token) : Prop :=
  leading = none →
    Settles (fun front => Taken (Level.joined precedence) false front ∧ Loose precedence front.rest)
      (Refuses inGroup tokens) (readMember precedence inGroup leading tokens)

/-- Signs that have been read before an operand do not matter for how reading it fails. -/
def OperandSettles (leading : Option Expression) (tokens : List Token) : Prop :=
  leading = none →
    Settles (fun front => Taken .operand false front)
      (fun cause => ∀ enclosing here, Formula.readOperand enclosing here tokens = .error cause)
      (Expression.readOperand leading tokens)

private theorem loose_of_stops {precedence tighter : Precedence} (found : precedence.tighter? = some tighter)
    (stops : Stops tighter inGroup tokens) : Loose precedence tokens := by
  rintro operator rest rfl
  have looser : operator.precedence.rank < tighter.rank := stops
  cases precedence <;> cases found <;> exact Nat.le_of_lt_succ looser

/-- What has been read in front of the lexemes does not keep a part of them from being read. -/
theorem refuses_of_refusesBehind {level : Level} {written rest : List Token} {formula : Formula} {cause : ReadError}
    (derived : Derives level written formula) (refuses : RefusesBehind inGroup rest cause) :
    Refuses inGroup (written ++ rest) cause := by
  intro enclosing read grouped
  rw [readOperand_of_derives derived]
  exact refuses _ _ _ grouped

private theorem append_of_split {whole front rest more later : List Token} (split : whole = front ++ rest)
    (splitRest : rest = more ++ later) : whole = front ++ more ++ later := by
  rw [split, splitRest, List.append_assoc]

private theorem chain_settles (member : MemberSettles precedence inGroup leading tokens)
    (behind : ∀ first : Front tokens,
      StepsSettle precedence inGroup closes first.expression [] first.leading first.rest) :
    ChainSettles precedence inGroup closes leading tokens := by
  intro noLeading closesGroup
  rw [readChain]
  refine (member noLeading).bind ?_ fun cause refuses => refuses
  rintro first ⟨⟨used, written, formula, split, derived, normal⟩, loose⟩
  refine (behind first used closesGroup loose).bind ?_ ?_
  · rintro whole ⟨⟨usedToo, more, tail, splitRest, spelled, single, assembled⟩, stops⟩
    refine ⟨⟨usedToo, written ++ more, joinAll formula tail precedence, append_of_split split splitRest,
      joinAll_derives single derived spelled, ?_⟩, stops⟩
    rw [normalize_joinAll single derived spelled, normal]
    exact assembled.symm
  · intro cause refuses
    rw [split]
    exact refuses_of_refusesBehind derived refuses

private theorem endsBefore_settles {steps : List (Operator × Expression)} {first : Expression}
    (noLeading : leading = none) (stops : Stops precedence inGroup tokens)
    (unclosed : closes = true → RefusesBehind inGroup tokens .unclosedParen) :
    Settles (fun front => TakenBehind precedence closes first steps front ∧
        (closes = false → Stops precedence inGroup front.rest))
      (RefusesBehind inGroup tokens)
      (Expression.endsBefore closes (assemble first steps precedence) leading tokens) := by
  cases closes with
  | true => exact unclosed rfl
  | false =>
      refine ⟨⟨noLeading, [], [], rfl, .nil, fun step member => (List.not_mem_nil member).elim, ?_⟩, fun _ => stops⟩
      rw [List.map_nil, List.append_nil]

private theorem precedence_eq_of_loose {operator : Operator} {rest : List Token}
    (loose : Loose precedence (.operator operator :: rest))
    (tight : ¬operator.precedence.rank < precedence.rank) : operator.precedence = precedence :=
  Precedence.eq_of_rank (Nat.le_antisymm (loose operator rest rfl) (Nat.le_of_not_lt tight))

private theorem steps_settle_operator {first : Expression} {steps : List (Operator × Expression)} {operator : Operator}
    {rest : List Token} (tight : ¬operator.precedence.rank < precedence.rank)
    (member : MemberSettles precedence inGroup leading rest)
    (behind : ∀ next : Front rest,
      StepsSettle precedence inGroup closes first (steps ++ [(operator, next.expression)]) next.leading next.rest) :
    StepsSettle precedence inGroup closes first steps leading (.operator operator :: rest) := by
  intro noLeading closesGroup loose
  rw [readSteps, if_neg tight]
  have isOf := precedence_eq_of_loose loose tight
  refine (member noLeading).bind ?_ fun cause refuses enclosing read last grouped => refuses enclosing _ grouped
  rintro next ⟨⟨used, written, formula, split, derived, normal⟩, looseAgain⟩
  refine (behind next used closesGroup looseAgain).bind ?_ ?_
  · rintro whole ⟨⟨usedToo, more, tail, splitRest, spelled, single, assembled⟩, stops⟩
    have whole_split := congrArg (Token.operator operator :: ·) (append_of_split split splitRest)
    refine ⟨⟨usedToo, .operator operator :: (written ++ more), (operator, formula) :: tail, whole_split,
      .cons derived spelled, ?_, ?_⟩, stops⟩
    · intro step member
      rcases List.mem_cons.mp member with same | later
      · rw [same]
        exact isOf
      · exact single step later
    · rw [List.map_cons, normal, List.append_cons]
      exact assembled
  · intro cause refuses enclosing read last grouped
    rw [split]
    exact refuses_of_refusesBehind derived refuses enclosing _ grouped

theorem steps_settle_nil (first : Expression) (steps : List (Operator × Expression)) :
    StepsSettle precedence inGroup closes first steps leading [] := by
  intro noLeading closesGroup _
  rw [readSteps]
  refine endsBefore_settles noLeading trivial ?_
  intro isGroup enclosing read last grouped
  have isOpen : enclosing.isEmpty = false := by
    rw [(closesGroup isGroup).2] at grouped
    exact (Bool.not_eq_true' _).mp grouped.symm
  rw [readOperator, isOpen]
  rfl

private theorem steps_settle_rightParen (first : Expression) (steps : List (Operator × Expression))
    (rest : List Token) :
    StepsSettle precedence inGroup closes first steps leading (.rightParen :: rest) := by
  intro noLeading closesGroup _
  rw [readSteps]
  cases inGroup with
  | false =>
      intro enclosing read last grouped
      cases enclosing with
      | nil => rfl
      | cons outer others => cases grouped
  | true =>
      cases closes with
      | true =>
          refine ⟨⟨noLeading, [], [], rfl, .nil, fun step member => (List.not_mem_nil member).elim, ?_⟩,
            fun isOpen => by cases isOpen⟩
          rw [List.map_nil, List.append_nil]
      | false => exact endsBefore_settles noLeading rfl fun isGroup => by cases isGroup

private theorem steps_settle_looser {operator : Operator} (first : Expression) (steps : List (Operator × Expression))
    (rest : List Token) (looser : operator.precedence.rank < precedence.rank) :
    StepsSettle precedence inGroup closes first steps leading (.operator operator :: rest) := by
  intro noLeading closesGroup _
  rw [readSteps, if_pos looser]
  refine endsBefore_settles noLeading looser fun isGroup => ?_
  -- No operator binds less tightly than those of the sum that a group is.
  rw [(closesGroup isGroup).1] at looser
  exact absurd looser (Nat.not_lt_zero _)

private theorem steps_settle_other {other : Token} (first : Expression) (steps : List (Operator × Expression))
    (rest : List Token) (noParen : other = .rightParen → False)
    (noOperator : ∀ operator, other = .operator operator → False) :
    StepsSettle precedence inGroup closes first steps leading (other :: rest) := by
  intro _ _ _
  cases other with
  | rightParen => exact (noParen rfl).elim
  | operator operator => exact (noOperator operator rfl).elim
  | _ =>
      rw [readSteps]
      · exact fun enclosing read last grouped => rfl
      · exact noParen
      · exact noOperator

private theorem member_settles_of_chain {tighter : Precedence} (found : precedence.tighter? = some tighter)
    (chain : ChainSettles tighter inGroup false leading tokens) :
    MemberSettles precedence inGroup leading tokens := by
  intro noLeading
  rw [Expression.readMember_of_tighter? found, ← Level.made_of_tighter? found]
  refine (chain noLeading fun closes => by cases closes).imp ?_ ?_
  · exact fun front taken => ⟨taken.1, loose_of_stops found (taken.2 rfl)⟩
  · exact fun cause refuses => refuses

private theorem member_settles_of_operand (found : precedence.tighter? = none)
    (operand : OperandSettles leading tokens) :
    MemberSettles precedence inGroup leading tokens := by
  intro noLeading
  cases precedence <;> cases found
  rw [Expression.readMember_power]
  refine (operand noLeading).imp ?_ ?_
  · intro front taken
    exact ⟨taken, fun operator rest _ => operator.precedence.rank_le_two⟩
  · exact fun cause fails enclosing read _ => fails enclosing _

private theorem operand_settles_sign {operator : Operator} {rest : List Token} (isSign : operator.isSign = true)
    (operand : OperandSettles none rest) : OperandSettles none (.operator operator :: rest) := by
  intro _
  rw [Expression.readOperand, if_pos isSign]
  have isSubtract := Operator.isSign_iff.mp isSign
  subst isSubtract
  refine (operand rfl).bind ?_ ?_
  · rintro front ⟨used, written, formula, split, derived, normal⟩
    refine ⟨used, .operator .subtract :: written, .minus formula, congrArg (Token.operator .subtract :: ·) split,
      .minus derived, ?_⟩
    change formula.normalize.negate = _
    rw [normal]
  · exact fun cause fails enclosing here => fails enclosing { here with signs := here.signs + 1 }

private theorem operand_settles_noSign {operator : Operator} (rest : List Token) (noSign : ¬operator.isSign = true) :
    OperandSettles none (.operator operator :: rest) := by
  intro _
  rw [Expression.readOperand, if_neg noSign]
  intro enclosing here
  cases operator with
  | subtract => exact absurd rfl noSign
  | _ => rfl

private theorem operand_settles_group {rest : List Token} (content : ChainSettles .sum true true none rest) :
    OperandSettles none (.leftParen :: rest) := by
  intro _
  rw [Expression.readOperand]
  refine (content rfl fun _ => ⟨rfl, rfl⟩).bind ?_ ?_
  · rintro front ⟨⟨used, written, formula, split, derived, normal⟩, _⟩
    have whole_split : Token.leftParen :: rest = .leftParen :: (written ++ [.rightParen]) ++ front.rest := by
      refine congrArg (Token.leftParen :: ·) (split.trans ?_)
      exact (List.append_assoc written [.rightParen] front.rest).symm
    exact ⟨used, .leftParen :: (written ++ [.rightParen]), .group formula, whole_split, .group derived, normal⟩
  · exact fun cause refuses enclosing here => refuses (here :: enclosing) [] rfl

private theorem operand_settles_single {token : Token} {formula : Formula} (derived : Derives .operand [token] formula)
    (rest : List Token) (front : Front (token :: rest)) (used : front.leading = none)
    (isRest : front.rest = rest) (normal : formula.normalize = front.expression)
    (reads : Expression.readOperand none (token :: rest) = .ok front) : OperandSettles none (token :: rest) := by
  intro _
  rw [reads]
  refine ⟨used, [token], formula, ?_, derived, normal⟩
  rw [isRest]
  rfl

private theorem operand_settles_other {other : Token} (rest : List Token)
    (noOperator : ∀ operator, other = .operator operator → False) (noParen : other = .leftParen → False)
    (noQuantity : ∀ value, other = .quantity value → False) (noVar : ∀ name, other = .var name → False)
    (noOutput : ∀ index, other = .output index → False) : OperandSettles none (other :: rest) := by
  intro _
  rw [Expression.readOperand]
  · intro enclosing here
    cases other with
    | operator operator => exact (noOperator operator rfl).elim
    | leftParen => exact (noParen rfl).elim
    | quantity value => exact (noQuantity value rfl).elim
    | var name => exact (noVar name rfl).elim
    | output index => exact (noOutput index rfl).elim
    | _ => rfl
  · exact noOperator
  · exact noParen
  · exact noQuantity
  · exact noVar
  · exact noOutput

/-- Every call of the descent settles, by induction on the calls. -/
theorem readChain_settles (precedence : Precedence) (inGroup closes : Bool) (leading : Option Expression)
    (tokens : List Token) : ChainSettles precedence inGroup closes leading tokens := by
  refine (@Expression.readChain.mutual_induct ChainSettles StepsSettle MemberSettles OperandSettles
    ?chain ?nil ?strayParen ?closingParen ?innerParen ?looser ?operator ?noOperator ?tighter ?operand
    ?leading ?empty ?sign ?noSign ?group ?quantity ?var ?output ?noValue).1 precedence inGroup closes leading tokens
  case chain => exact fun precedence inGroup closes leading tokens member behind => chain_settles member behind
  case nil => exact fun precedence inGroup closes first steps leading => steps_settle_nil first steps
  case strayParen =>
    exact fun precedence inGroup closes first steps leading rest _ => steps_settle_rightParen first steps rest
  case closingParen =>
    exact fun precedence inGroup first steps leading rest _ => steps_settle_rightParen first steps rest
  case innerParen =>
    exact fun precedence inGroup closes first steps leading rest _ _ => steps_settle_rightParen first steps rest
  case looser =>
    exact fun precedence inGroup closes first steps leading operator rest looser =>
      steps_settle_looser first steps rest looser
  case operator =>
    exact fun precedence inGroup closes first steps leading operator rest tight member behind =>
      steps_settle_operator tight member behind
  case noOperator =>
    exact fun precedence inGroup closes first steps leading other rest noParen noOperator =>
      steps_settle_other first steps rest noParen noOperator
  case tighter =>
    exact fun precedence inGroup leading tokens tighter found chain => member_settles_of_chain found chain
  case operand =>
    exact fun precedence inGroup leading tokens found operand => member_settles_of_operand found operand
  case leading =>
    intro expression tokens noLeading
    cases noLeading
  case empty =>
    intro _
    rw [Expression.readOperand]
    exact fun enclosing here => rfl
  case sign => exact fun operator rest isSign operand => operand_settles_sign isSign operand
  case noSign => exact fun operator rest noSign => operand_settles_noSign rest noSign
  case group => exact fun rest content => operand_settles_group content
  case quantity =>
    intro value rest
    exact operand_settles_single (.quantity value) rest _ rfl rfl rfl (by rw [Expression.readOperand])
  case var =>
    intro name rest
    exact operand_settles_single (.var name) rest _ rfl rfl rfl (by rw [Expression.readOperand])
  case output =>
    intro index rest
    exact operand_settles_single (.output index) rest _ rfl rfl rfl (by rw [Expression.readOperand])
  case noValue =>
    exact fun other rest noOperator noParen noQuantity noVar noOutput =>
      operand_settles_other rest noOperator noParen noQuantity noVar noOutput

/-- The descent finds the normal form of the formula that is read position by position, and fails for the same
cause. -/
theorem expression_ofTokens (tokens : List Token) :
    Expression.ofTokens none tokens = (ofTokens tokens).map normalize := by
  have settles := readChain_settles .sum false false none tokens rfl fun closes => by cases closes
  unfold Expression.ofTokens
  cases found : readChain .sum false false none tokens with
  | error cause =>
      rw [found] at settles
      have fails : ofTokens tokens = .error cause := settles [] [] rfl
      rw [fails]
      rfl
  | ok front =>
      rw [found] at settles
      obtain ⟨⟨_, written, formula, split, derived, normal⟩, stops⟩ := settles
      have isWhole : front.rest = [] := by
        have stopped := stops rfl
        cases rest : front.rest with
        | nil => rfl
        | cons token later =>
            rw [rest] at stopped
            cases token with
            | rightParen => cases stopped
            | operator operator => exact absurd stopped (Nat.not_lt_zero _)
            | _ => exact stopped.elim
      have isWritten : tokens = written := by
        rw [split, isWhole]
        exact List.append_nil written
      have reads : ofTokens tokens = .ok formula := by
        rw [isWritten]
        exact ofTokens_of_derives derived
      rw [reads]
      exact congrArg Except.ok normal.symm

end Formula

end QuantityCalculator
