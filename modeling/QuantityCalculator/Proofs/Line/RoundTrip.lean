import QuantityCalculator.Expression.Text
import QuantityCalculator.Proofs.Expression.Signs
import QuantityCalculator.Proofs.Formula.Meaning
import QuantityCalculator.Proofs.Line.Acceptance
import QuantityCalculator.Proofs.Token.Scanner

/-!
Expressions read back from their text.

Parentheses stand exactly where the grammar would otherwise group the operands of an expression differently.
So the text of an expression in normal form is read as a formula with that normal form.
-/

namespace QuantityCalculator

def Token.IsName (name : String) : Prop :=
  ∃ results, Token.scan results name = .ok [.var name]

namespace Expression

/-- Variables with names, results that there are and whose index has 64 bits, and towers of at least two operands. -/
def Readable (results : Nat) : Expression → Prop
  | .var name => Token.IsName name
  | .output index => 0 < index ∧ index ≤ results ∧ index ≤ Token.greatestIndex
  | .tower operands => 2 ≤ operands.length
  | _ => True

/-- Spliced expressions of exact plain numbers, variables and some number of stored results. -/
abbrev Form.readable (results : Nat) : Form where
  quantity value := ∃ number : Rat, value = .ofNumber (.exact number)
  negates := fun _ ⟨number, isNumber⟩ => ⟨-number, isNumber ▸ rfl⟩
  atom := Readable results
  spliced := True
  towers := True

/-- Expressions that are built from exact plain numbers, variables and some number of stored results.  A chain
does not contain chains of its own precedence, and signs only at its start.  References to results are numbers
of 64 bits. -/
structure Normal (results : Nat) (expression : Expression) : Prop where
  formed : expression.Formed (.readable results)
  signsLead : expression.SignsLead

/-! ### Texts and their formulas -/

/-- A text is scanned as the lexemes of a formula with a normal form. -/
def Reads (results : Nat) (level : Formula.Level) (text : List Char) (expression : Expression) : Prop :=
  ∃ tokens formula, Token.Scans results text tokens ∧ Formula.Derives level tokens formula ∧
    formula.normalize = expression

def level : Expression → Formula.Level
  | .chain precedence _ _ => Formula.Level.made precedence
  | .tower _ => .power
  | _ => .operand

variable {results : Nat} {piece first second : List Char} {expression left right : Expression}

theorem Reads.power (reads : Reads results .operand piece expression) : Reads results .power piece expression := by
  obtain ⟨tokens, formula, scans, derived, normal⟩ := reads
  exact ⟨tokens, formula, scans, .power derived, normal⟩

theorem Reads.product (reads : Reads results .power piece expression) :
    Reads results .product piece expression := by
  obtain ⟨tokens, formula, scans, derived, normal⟩ := reads
  exact ⟨tokens, formula, scans, .product derived, normal⟩

theorem Reads.sum (reads : Reads results .product piece expression) : Reads results .sum piece expression := by
  obtain ⟨tokens, formula, scans, derived, normal⟩ := reads
  exact ⟨tokens, formula, scans, .sum derived, normal⟩

theorem Reads.whole {level : Formula.Level} (reads : Reads results level piece expression) :
    Reads results .sum piece expression := by
  cases level with
  | operand => exact reads.power.product.sum
  | power => exact reads.product.sum
  | product => exact reads.sum
  | sum => exact reads

theorem Reads.minus (reads : Reads results .operand piece expression) :
    Reads results .operand ('-' :: piece) expression.negate := by
  obtain ⟨tokens, formula, scans, derived, rfl⟩ := reads
  refine ⟨_, _, scans.minus, .minus derived, ?_⟩
  simp only [Formula.normalize]

theorem Reads.group (reads : Reads results .sum piece expression) :
    Reads results .operand ('(' :: (piece ++ [')'])) expression := by
  obtain ⟨tokens, formula, scans, derived, rfl⟩ := reads
  refine ⟨_, _, scans.group, .group derived, ?_⟩
  simp only [Formula.normalize]

theorem Reads.join {precedence : Precedence} {operator : Operator} (noPower : precedence ≠ .power)
    (isOf : operator.precedence = precedence) (leftReads : Reads results (Formula.Level.made precedence) first left)
    (rightReads : Reads results (Formula.Level.joined precedence) second right) :
    Reads results (Formula.Level.made precedence) (first ++ ' ' :: (operator.symbol.toList ++ ' ' :: second))
      (left.join operator right) := by
  obtain ⟨leftTokens, leftFormula, leftScans, leftDerived, rfl⟩ := leftReads
  obtain ⟨rightTokens, rightFormula, rightScans, rightDerived, rfl⟩ := rightReads
  have normal : (Formula.binary operator leftFormula rightFormula).normalize =
      leftFormula.normalize.join operator rightFormula.normalize := by
    apply Formula.normalize_binary
    rw [isOf]
    exact noPower
  refine ⟨_, _, leftScans.join operator rightScans, ?_, normal⟩
  cases precedence with
  | sum => exact .add isOf leftDerived rightDerived
  | product => exact .multiply isOf leftDerived rightDerived
  | power => exact absurd rfl noPower

private theorem Reads.bare (reads : Reads results expression.level piece expression) {precedence : Precedence}
    (noParens : expression.needsParens precedence = false) :
    Reads results (Formula.Level.joined precedence) piece expression := by
  have single : Reads results .operand piece expression →
      Reads results (Formula.Level.joined precedence) piece expression := by
    intro alone
    cases precedence with
    | sum => exact alone.power.product
    | product => exact alone.power
    | power => exact alone
  cases expression with
  | chain inner operands operators =>
      have looser : ¬inner.rank ≤ precedence.rank := of_decide_eq_false noParens
      cases precedence with
      | sum =>
          cases inner with
          | sum => exact absurd (by decide) looser
          | product => exact reads
          | power => exact reads.product
      | product =>
          cases inner with
          | power => exact reads
          | _ => exact absurd (by decide) looser
      | power => cases inner <;> exact absurd (by decide) looser
  | tower operands =>
      have noPower : precedence ≠ .power := of_decide_eq_false noParens
      cases precedence with
      | sum => exact reads.product
      | product => exact reads
      | power => exact absurd rfl noPower
  | _ => exact single reads

/-- An operand is read back, in parentheses where it needs them. -/
theorem Reads.operand {text : String} (reads : Reads results expression.level text.toList expression)
    (precedence : Precedence) :
    Reads results (Formula.Level.joined precedence)
      (parenthesized text (expression.needsParens precedence)).toList expression := by
  cases parens : expression.needsParens precedence with
  | false => exact reads.bare parens
  | true =>
      have inside : (parenthesized text true).toList = '(' :: (text.toList ++ [')']) := by
        rw [parenthesized, if_pos rfl, String.toList_append, String.toList_append]
        rfl
      have grouped := reads.whole.group
      rw [inside]
      cases precedence with
      | sum => exact grouped.power.product
      | product => exact grouped.power
      | power => exact grouped

/-! ### Expressions in normal form -/

/-- A negative number is written as its opposite behind a sign. -/
theorem ratioText_of_neg {value : Rat} (negative : value < 0) :
    (Scientific.ratioText value).toList = '-' :: (Scientific.ratioText (-value)).toList := by
  have numerator : value.num < 0 := Rat.num_neg.mpr negative
  have digits : (Int.repr value.num).toList = '-' :: (Int.repr (-value.num)).toList := by
    rw [Text.toList_repr, Text.toList_repr, if_neg (by omega), if_pos (by omega)]
  unfold Scientific.ratioText
  rw [Rat.num_neg_eq_neg_num, Rat.den_neg_eq_den]
  split
  · exact digits
  · rw [String.toList_append, String.toList_append, digits, String.toList_append, String.toList_append]
    rfl

private theorem reads_quantity (results : Nat) (value : Rat) :
    Reads results .operand (text true (.quantity (.ofNumber (.exact value)))).toList
      (.quantity (.ofNumber (.exact value))) := by
  have positive : ∀ r : Rat, 0 ≤ r → Reads results .operand (Scientific.ratioText r).toList
      (.quantity (.ofNumber (.exact r))) := by
    intro r nonnegative
    refine ⟨_, _, .literal (Token.isLiteral_ratioText nonnegative) results, .quantity _, ?_⟩
    simp only [Formula.normalize]
  have written : text true (.quantity (.ofNumber (.exact value))) = Scientific.ratioText value := rfl
  rw [written]
  by_cases nonnegative : 0 ≤ value
  · exact positive value nonnegative
  · have signed := ratioText_of_neg (not_le.mp nonnegative)
    have back : (Expression.quantity (.ofNumber (.exact (-value)))).negate =
        .quantity (.ofNumber (.exact value)) := by
      change Expression.quantity (.ofNumber (.exact (- -value))) = _
      rw [neg_neg]
    have reads := (positive (-value) (by linarith)).minus
    rwa [back, ← signed] at reads

private theorem reads_chainTail {precedence : Precedence} {rest : List Expression} {operators : List Operator}
    (noPower : precedence ≠ .power) (count : rest.length = operators.length)
    (single : ∀ operator, operator ∈ operators → operator.precedence = precedence)
    (parts : ∀ operand, operand ∈ rest → Reads results operand.level (operand.text true).toList operand)
    (leftReads : Reads results (Formula.Level.made precedence) first left) :
    Reads results (Formula.Level.made precedence) (first ++ (chainTail true precedence rest operators).toList)
      (joinSteps left (operators.zip rest)) := by
  induction rest generalizing first left operators with
  | nil =>
      cases operators with
      | nil =>
          have nothing : (chainTail true precedence [] []).toList = [] := rfl
          rw [nothing, List.append_nil]
          exact leftReads
      | cons operator others => cases count
  | cons operand later ih =>
      cases operators with
      | nil => cases count
      | cons operator others =>
          have joined := leftReads.join noPower (single operator List.mem_cons_self)
            ((parts operand List.mem_cons_self).operand precedence)
          have onward := ih (Nat.succ.inj count)
            (fun other member => single other (List.mem_cons_of_mem _ member))
            (fun other member => parts other (List.mem_cons_of_mem _ member)) joined
          have written : first ++ (chainTail true precedence (operand :: later) (operator :: others)).toList =
              first ++ ' ' :: (operator.symbol.toList ++ ' ' ::
                (parenthesized (operand.text true) (operand.needsParens precedence)).toList) ++
                (chainTail true precedence later others).toList := by
            simp only [chainTail, String.toList_append, List.append_assoc, List.cons_append]
            rfl
          rw [written]
          exact onward

/-- The operands of a tower are read as the exponents of one power. -/
theorem reads_towerText {operands : List Expression} (nonempty : operands ≠ [])
    (parts : ∀ operand, operand ∈ operands → Reads results operand.level (operand.text true).toList operand) :
    ∃ tokens formula, Token.Scans results (towerText true operands).toList tokens ∧
      Formula.Derives .power tokens formula ∧ formula.towerOperands = operands := by
  induction operands with
  | nil => exact absurd rfl nonempty
  | cons operand rest ih =>
      obtain ⟨tokens, formula, scans, derived, normal⟩ := (parts operand List.mem_cons_self).operand .power
      cases rest with
      | nil =>
          have alone : ∀ base exponent, formula ≠ .binary .raise base exponent := by
            rintro base exponent rfl
            cases derived
          refine ⟨tokens, formula, ?_, .power derived, ?_⟩
          · rw [towerText]
            exact scans
          · rw [Formula.towerOperands_eq alone, normal]
      | cons next later =>
          obtain ⟨moreTokens, exponent, moreScans, moreDerived, more⟩ := ih (List.cons_ne_nil _ _)
            fun other member => parts other (List.mem_cons_of_mem _ member)
          have written : (towerText true (operand :: next :: later)).toList =
              (parenthesized (operand.text true) (operand.needsParens .power)).toList ++
                ' ' :: (Operator.raise.symbol.toList ++ ' ' :: (towerText true (next :: later)).toList) := by
            rw [towerText]
            · simp only [String.toList_append, List.append_assoc]
              rfl
            · exact List.cons_ne_nil _ _
          refine ⟨_, .binary .raise formula exponent, ?_, .raise derived moreDerived, ?_⟩
          · rw [written]
            exact scans.join .raise moreScans
          · simp only [Formula.towerOperands, normal, more]

private theorem reads_output {index : Nat} (isStored : Readable results (.output index)) :
    Reads results .operand (text true (.output index)).toList (.output index) := by
  obtain ⟨positive, stored, fits⟩ := isStored
  have written : (text true (.output index)).toList = '[' :: (Nat.toDigits 10 index ++ [']']) := by
    rw [text, String.toList_append, String.toList_append, Nat.repr_eq_ofList_toDigits, String.toList_ofList,
      String.toList_ofList]
    rfl
  rw [written]
  refine ⟨_, _, .output positive stored fits, .output index, ?_⟩
  simp only [Formula.normalize]

private theorem reads_chain {precedence : Precedence} {initial : Expression} {rest : List Expression}
    {operators : List Operator} (noPower : precedence ≠ .power)
    (single : ∀ operator, operator ∈ operators → operator.precedence = precedence)
    (count : (initial :: rest).length = operators.length + 1) (spliced : Spliced precedence (initial :: rest))
    (unsigned : ∀ operand, operand ∈ rest → operand.isNegation = false)
    (parts : ∀ operand, operand ∈ initial :: rest → Reads results operand.level (operand.text true).toList operand) :
    Reads results (Formula.Level.made precedence) (text true (.chain precedence (initial :: rest) operators)).toList
      (.chain precedence (initial :: rest) operators) := by
  obtain ⟨several, flat⟩ := spliced
  have begins : Reads results (Formula.Level.made precedence)
      (parenthesized (initial.text true) (initial.needsParens precedence)).toList initial := by
    have operand := (parts initial List.mem_cons_self).operand precedence
    cases precedence with
    | sum => exact operand.sum
    | product => exact operand.product
    | power => exact absurd rfl noPower
  have reads := reads_chainTail noPower (Nat.succ.inj count) single
    (fun operand member => parts operand (List.mem_cons_of_mem _ member)) begins
  rw [joinSteps_of_flat (List.ne_nil_of_length_pos (Nat.lt_of_succ_lt_succ several)) (Nat.succ.inj count)
      single (fun operand member => flat operand (List.mem_cons_of_mem _ member)) unsigned,
    Links.start_of_flat (flat initial List.mem_cons_self)] at reads
  have written : (text true (.chain precedence (initial :: rest) operators)).toList =
      (parenthesized (initial.text true) (initial.needsParens precedence)).toList ++
        (chainTail true precedence rest operators).toList := by
    rw [text, chainText, String.toList_append]
  rw [written]
  exact reads

private theorem reads_tower {operands : List Expression} (several : 2 ≤ operands.length)
    (parts : ∀ operand, operand ∈ operands → Reads results operand.level (operand.text true).toList operand) :
    Reads results .power (text true (.tower operands)).toList (.tower operands) := by
  obtain ⟨tokens, formula, scans, derived, isTower⟩ :=
    reads_towerText (List.ne_nil_of_length_pos (Nat.zero_lt_of_lt several)) parts
  refine ⟨tokens, formula, scans, derived, ?_⟩
  -- of several operands the grammar makes a power
  cases derived with
  | power operandDerived =>
      have alone : ∀ base exponent, formula ≠ .binary .raise base exponent := by
        rintro base exponent rfl
        cases operandDerived
      rw [Formula.towerOperands_eq alone] at isTower
      rw [← isTower] at several
      exact absurd several (by simp)
  | raise baseDerived exponentDerived =>
      rw [Formula.normalize_raise, ← isTower]
      simp only [Formula.towerOperands]

private theorem reads_negation {operand : Expression} (tidy : (Expression.negation operand).Tidy)
    (reads : Reads results operand.level (operand.text true).toList operand) :
    Reads results .operand (text true (.negation operand)).toList (.negation operand) := by
  have written : (text true (.negation operand)).toList =
      '-' :: (parenthesized (operand.text true) (operand.needsParens .power)).toList := by
    rw [text, String.toList_append]
    rfl
  have negated : operand.negate = .negation operand := by
    cases operand with
    | var name => rfl
    | output index => rfl
    | tower operands => rfl
    | _ => exact tidy.elim
  have signed := (reads.operand .power).minus
  rw [negated] at signed
  rw [written]
  exact signed

/-- The text of an expression in normal form is read as a formula with that normal form. -/
theorem Normal.reads (normal : expression.Normal results) :
    Reads results expression.level (expression.text true).toList expression := by
  obtain ⟨formed, signs⟩ := normal
  induction formed with
  | quantity _ isPlain =>
      obtain ⟨number, rfl⟩ := isPlain
      exact reads_quantity results number
  | var name isName =>
      obtain ⟨_, scanned⟩ := isName
      refine ⟨_, _, .name (Token.isNameText_of_scan scanned) results, .var name, ?_⟩
      simp only [Formula.normalize]
  | output index isStored => exact reads_output isStored
  | @chain precedence operands operators noPower single count spliced parts ih =>
      cases operands with
      | nil => cases count
      | cons initial rest =>
          obtain ⟨leads, others⟩ := signsLead_chain_iff.mp signs
          refine reads_chain noPower single count (spliced trivial) (fun operand member => (others operand member).1) ?_
          exact List.forall_mem_cons.mpr ⟨ih initial List.mem_cons_self leads,
            fun operand member => ih operand (List.mem_cons_of_mem _ member) (others operand member).2⟩
  | tower several parts ih =>
      have leads := signsLead_tower_iff.mp signs
      exact reads_tower several fun operand member => ih trivial operand member (leads operand member)
  | negation tidy part ih => exact reads_negation (tidy trivial) (ih (signsLead_negation_iff.mp signs))

end Expression

namespace Line

/-- A line without assignments and units is read as the normal form of its formula. -/
theorem read_of_derives {workspace : Workspace} {text : String} {tokens : List Token} {formula : Formula}
    (scanned : Token.scan workspace.outputs.length text = .ok tokens) (derived : Formula.Derives .sum tokens formula) :
    read workspace text = .ok { targets := [], expression := formula.normalize, displayUnit := none } := by
  have starts : ∀ operator, tokens.head? = some (.operator operator) → operator.isSign = true := by
    intro operator isHead
    obtain ⟨token, rest, rfl, starts⟩ := Formula.starts_of_derives derived
    exact starts operator (Option.some.inj isHead)
  have lineDerived : Derives workspace tokens [] formula none :=
    ⟨tokens, tokens, (List.append_nil tokens).symm, .whole starts, derived⟩
  rw [read_eq_ofTokens scanned, ofTokens_of_derives lineDerived]

/-- What is written of an expression in normal form is read as that expression. -/
theorem read_text {workspace : Workspace} {expression : Expression}
    (normal : expression.Normal workspace.outputs.length) :
    read workspace (expression.text true) = .ok { targets := [], expression, displayUnit := none } := by
  obtain ⟨tokens, formula, scans, derived, isNormal⟩ := normal.reads.whole
  rw [read_of_derives scans.scan derived, isNormal]

/-- The expression that is written `-x - (-3 + [1]) * 1/3 ^ (x ^ [1]) ^ -(x ^ x)`. -/
def nestedExpression : Expression :=
  .chain .sum
    [.negation (.var "x"),
      .chain .product
        [.chain .sum [.quantity (.ofNumber (.exact (-3))), .output 1] [.add],
          .tower [.quantity (.ofNumber (.exact (1 / 3))), .tower [.var "x", .output 1],
            .negation (.tower [.var "x", .var "x"])]]
        [.multiply]]
    [.subtract]

theorem read_text_nested :
    nestedExpression.text true = "-x - (-3 + [1]) * 1/3 ^ (x ^ [1]) ^ -(x ^ x)" ∧
      read afterUnknown (nestedExpression.text true) =
        .ok { targets := [], expression := nestedExpression, displayUnit := none } := by
  have both : ∀ {holds : Expression → Prop} {first second : Expression}, holds first → holds second →
      ∀ operand, operand ∈ [first, second] → holds operand := by
    intro holds first second firstHolds secondHolds
    exact List.forall_mem_cons.mpr ⟨firstHolds, List.forall_mem_singleton.mpr secondHolds⟩
  have x : Expression.Normal 1 (.var "x") := ⟨.var "x" ⟨0, rfl⟩, .var "x"⟩
  have result : Expression.Normal 1 (.output 1) := ⟨.output 1 ⟨by decide, by decide, by decide⟩, .output 1⟩
  have number : ∀ r : Rat, Expression.Normal 1 (.quantity (.ofNumber (.exact r))) :=
    fun r => ⟨.quantity _ ⟨r, rfl⟩, .quantity _⟩
  have minus : ∀ {operand}, (Expression.negation operand).Tidy → Expression.Normal 1 operand →
      Expression.Normal 1 (.negation operand) :=
    fun tidy normal => ⟨.negation (fun _ => tidy) normal.formed, .negation normal.signsLead⟩
  have tower : ∀ {operands : List Expression}, 2 ≤ operands.length →
      (∀ operand, operand ∈ operands → operand.Normal 1) → Expression.Normal 1 (.tower operands) :=
    fun several parts => ⟨.tower several fun _ operand member => (parts operand member).formed,
      .tower fun operand member => (parts operand member).signsLead⟩
  have pair : ∀ {precedence operator first second}, Operator.precedence operator = precedence →
      precedence ≠ .power → Expression.isChainOf precedence first = false →
      Expression.isChainOf precedence second = false → second.isNegation = false →
      Expression.Normal 1 first → Expression.Normal 1 second →
        Expression.Normal 1 (.chain precedence [first, second] [operator]) := by
    intro precedence operator first second isOf noPower firstFlat secondFlat noSign firstNormal secondNormal
    exact ⟨.chain noPower (List.forall_mem_singleton.mpr isOf) rfl
        (fun _ => ⟨Nat.le_refl 2, both firstFlat secondFlat⟩) (both firstNormal.formed secondNormal.formed),
      .chain (List.forall_mem_singleton.mpr noSign) (both firstNormal.signsLead secondNormal.signsLead)⟩
  refine ⟨by decide +kernel, read_text ?_⟩
  refine pair rfl (by decide) rfl rfl rfl (minus trivial x) ?_
  refine pair rfl (by decide) rfl rfl rfl ?_ ?_
  · exact pair rfl (by decide) rfl rfl rfl (number (-3)) result
  · have power := tower (by decide) (both x result)
    have square := tower (by decide) (both x x)
    exact tower (by decide) (List.forall_mem_cons.mpr ⟨number (1 / 3), both power (minus trivial square)⟩)

end Line

end QuantityCalculator
