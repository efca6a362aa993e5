import QuantityCalculator.Proofs.Line

/-!
Which lines are accepted.

The syntax of lines repeats operands behind operators of one precedence, where the grammar of formulas nests
them.  Both spell the same lexemes, so the lines that are accepted are those written in the syntax.
-/

namespace QuantityCalculator

namespace Formula

def repeated (steps : List (Operator × List Token)) : List Token :=
  steps.flatMap fun step => .operator step.1 :: step.2

inductive Written : Level → List Token → Prop where
  | minus {tokens : List Token} (operand : Written .operand tokens) :
      Written .operand (.operator .subtract :: tokens)
  | quantity (value : Quantity) : Written .operand [.quantity value]
  | var (name : String) : Written .operand [.var name]
  | output (index : Nat) : Written .operand [.output index]
  | group {tokens : List Token} (content : Written .sum tokens) :
      Written .operand (.leftParen :: (tokens ++ [.rightParen]))
  | power {first : List Token} {steps : List (Operator × List Token)} (base : Written .operand first)
      (operators : ∀ step, step ∈ steps → step.1.precedence = .power)
      (exponents : ∀ step, step ∈ steps → Written .operand step.2) :
      Written .power (first ++ repeated steps)
  | product {first : List Token} {steps : List (Operator × List Token)} (factor : Written .power first)
      (operators : ∀ step, step ∈ steps → step.1.precedence = .product)
      (factors : ∀ step, step ∈ steps → Written .power step.2) :
      Written .product (first ++ repeated steps)
  | sum {first : List Token} {steps : List (Operator × List Token)} (term : Written .product first)
      (operators : ∀ step, step ∈ steps → step.1.precedence = .sum)
      (terms : ∀ step, step ∈ steps → Written .product step.2) :
      Written .sum (first ++ repeated steps)

/-! ### What is written is derived -/

private theorem exists_power {first : List Token} {base : Formula} {steps : List (Operator × List Token)}
    (baseWritten : Derives .operand first base)
    (operators : ∀ step, step ∈ steps → step.1.precedence = .power)
    (exponents : ∀ step, step ∈ steps → ∃ formula, Derives .operand step.2 formula) :
    ∃ formula, Derives .power (first ++ repeated steps) formula := by
  induction steps generalizing first base with
  | nil =>
      refine ⟨base, ?_⟩
      rw [repeated, List.flatMap_nil, List.append_nil]
      exact .power baseWritten
  | cons step rest ih =>
      obtain ⟨operator, tokens⟩ := step
      obtain ⟨next, nextWritten⟩ := exponents (operator, tokens) List.mem_cons_self
      obtain ⟨exponent, exponentWritten⟩ := ih nextWritten
        (fun later member => operators later (List.mem_cons_of_mem _ member))
        fun later member => exponents later (List.mem_cons_of_mem _ member)
      have isRaise : operator = .raise := by
        have isPower := operators (operator, tokens) List.mem_cons_self
        cases operator <;> first | rfl | cases isPower
      rw [isRaise]
      exact ⟨.binary .raise base exponent, .raise baseWritten exponentWritten⟩

/-- Operands that are joined from the left, one after the other. -/
theorem exists_joined {outer inner : Level} {precedence : Precedence}
    (join : ∀ {first second : List Token} {left right : Formula} {operator : Operator},
      operator.precedence = precedence → Derives outer first left → Derives inner second right →
        Derives outer (first ++ .operator operator :: second) (.binary operator left right))
    {first : List Token} {left : Formula} {steps : List (Operator × List Token)}
    (leftWritten : Derives outer first left)
    (operators : ∀ step, step ∈ steps → step.1.precedence = precedence)
    (operands : ∀ step, step ∈ steps → ∃ formula, Derives inner step.2 formula) :
    ∃ formula, Derives outer (first ++ repeated steps) formula := by
  induction steps generalizing first left with
  | nil =>
      refine ⟨left, ?_⟩
      rw [repeated, List.flatMap_nil, List.append_nil]
      exact leftWritten
  | cons step rest ih =>
      obtain ⟨right, rightWritten⟩ := operands step List.mem_cons_self
      have joined := join (operators step List.mem_cons_self) leftWritten rightWritten
      obtain ⟨formula, written⟩ := ih joined
        (fun later member => operators later (List.mem_cons_of_mem _ member))
        fun later member => operands later (List.mem_cons_of_mem _ member)
      refine ⟨formula, ?_⟩
      rw [List.append_assoc] at written
      exact written

private theorem exists_derives_of_written {level : Level} {tokens : List Token} (written : Written level tokens) :
    ∃ formula, Derives level tokens formula := by
  induction written with
  | minus _ ih =>
      obtain ⟨operand, operandWritten⟩ := ih
      exact ⟨.minus operand, .minus operandWritten⟩
  | quantity value => exact ⟨.quantity value, .quantity value⟩
  | var name => exact ⟨.var name, .var name⟩
  | output index => exact ⟨.output index, .output index⟩
  | group _ ih =>
      obtain ⟨content, contentWritten⟩ := ih
      exact ⟨.group content, .group contentWritten⟩
  | power _ operators _ ihBase ihExponents =>
      obtain ⟨base, baseWritten⟩ := ihBase
      exact exists_power baseWritten operators ihExponents
  | product _ operators _ ihFactor ihFactors =>
      obtain ⟨factor, factorWritten⟩ := ihFactor
      exact exists_joined .multiply (.product factorWritten) operators ihFactors
  | sum _ operators _ ihTerm ihTerms =>
      obtain ⟨term, termWritten⟩ := ihTerm
      exact exists_joined .add (.sum termWritten) operators ihTerms

/-! ### What is derived is written -/

private theorem append_nothing (tokens : List Token) : tokens ++ repeated [] = tokens :=
  List.append_nil tokens

private theorem append_step (first : List Token) (steps : List (Operator × List Token))
    (operator : Operator) (second : List Token) :
    first ++ repeated steps ++ .operator operator :: second =
      first ++ repeated (steps ++ [(operator, second)]) := by
  simp only [repeated, List.flatMap_append, List.flatMap_singleton, List.append_assoc]

private theorem forall_mem_append {holds : Operator × List Token → Prop}
    {steps : List (Operator × List Token)} (all : ∀ step, step ∈ steps → holds step)
    {last : Operator × List Token} (lastHolds : holds last) :
    ∀ step, step ∈ steps ++ [last] → holds step := by
  intro step member
  rcases List.mem_append.mp member with before | isLast
  · exact all step before
  · rw [List.mem_singleton.mp isLast]
    exact lastHolds

theorem written_of_derives {level : Level} {tokens : List Token} {formula : Formula}
    (derived : Derives level tokens formula) : Written level tokens := by
  have noStep : ∀ {holds : Operator × List Token → Prop} (step), step ∈ [] → holds step :=
    fun _ member => by cases member
  induction derived with
  | quantity value => exact .quantity value
  | var name => exact .var name
  | output index => exact .output index
  | minus _ ih => exact .minus ih
  | group _ ih => exact .group ih
  | @power tokens _ _ ih =>
      rw [← append_nothing tokens]
      exact .power ih noStep noStep
  | @raise first second base exponent _ _ ihBase ihExponent =>
      cases ihExponent with
      | @power next steps nextWritten operators exponents =>
          change Written .power (first ++ repeated ((.raise, next) :: steps))
          refine .power ihBase ?_ ?_
          · intro step member
            rcases List.mem_cons.mp member with same | later
            · rw [same]
              rfl
            · exact operators step later
          · intro step member
            rcases List.mem_cons.mp member with same | later
            · rw [same]
              exact nextWritten
            · exact exponents step later
  | @product tokens _ _ ih =>
      rw [← append_nothing tokens]
      exact .product ih noStep noStep
  | multiply isProduct _ _ ihLeft ihRight =>
      cases ihLeft with
      | product factor operators factors =>
          rw [append_step]
          exact .product factor (forall_mem_append operators isProduct) (forall_mem_append factors ihRight)
  | @sum tokens _ _ ih =>
      rw [← append_nothing tokens]
      exact .sum ih noStep noStep
  | add isSum _ _ ihLeft ihRight =>
      cases ihLeft with
      | sum term operators terms =>
          rw [append_step]
          exact .sum term (forall_mem_append operators isSum) (forall_mem_append terms ihRight)

/-- A formula starts with a lexeme, and with no operator but a sign. -/
theorem starts_of_derives {level : Level} {tokens : List Token} {formula : Formula}
    (derived : Derives level tokens formula) :
    ∃ token rest, tokens = token :: rest ∧ ∀ operator, token = .operator operator → operator.isSign = true := by
  induction derived with
  | quantity value => exact ⟨_, _, rfl, fun operator same => by cases same⟩
  | var name => exact ⟨_, _, rfl, fun operator same => by cases same⟩
  | output index => exact ⟨_, _, rfl, fun operator same => by cases same⟩
  | minus _ _ =>
      refine ⟨_, _, rfl, fun operator same => ?_⟩
      cases same
      rfl
  | group _ _ => exact ⟨_, _, rfl, fun operator same => by cases same⟩
  | power _ ih => exact ih
  | raise _ _ ihBase _ =>
      obtain ⟨token, rest, rfl, starts⟩ := ihBase
      exact ⟨token, _, rfl, starts⟩
  | product _ ih => exact ih
  | multiply _ _ _ ihLeft _ =>
      obtain ⟨token, rest, rfl, starts⟩ := ihLeft
      exact ⟨token, _, rfl, starts⟩
  | sum _ ih => exact ih
  | add _ _ _ ihLeft _ =>
      obtain ⟨token, rest, rfl, starts⟩ := ihLeft
      exact ⟨token, _, rfl, starts⟩

end Formula

namespace Line

/-- The expression of a line.  If it starts with a binary operator, its first operand is the last result. -/
inductive WrittenExpression (workspace : Workspace) : List Token → Prop where
  | whole {tokens : List Token} (written : Formula.Written .sum tokens) : WrittenExpression workspace tokens
  | continued {operator : Operator} {rest : List Token} (binary : operator ≠ .subtract)
      (switchedOn : workspace.settings.continuation = true) (nonempty : workspace.outputs ≠ [])
      (written : Formula.Written .sum
        (.output workspace.outputs.length :: .operator operator :: rest)) :
      WrittenExpression workspace (.operator operator :: rest)

/-- The syntax of a line: variables, each with an assignment sign behind it, an expression, and possibly a
unit. -/
def Written (workspace : Workspace) (tokens : List Token) (targets : List String)
    (unit : Option DisplayUnit) : Prop :=
  ∃ body, tokens = targetTokens targets ++ (body ++ unitTokens unit) ∧ WrittenExpression workspace body

private theorem exists_derives_of_written {workspace : Workspace} {tokens : List Token} {targets : List String}
    {unit : Option DisplayUnit} (written : Written workspace tokens targets unit) :
    ∃ formula, Derives workspace tokens targets formula unit := by
  obtain ⟨body, split, expression⟩ := written
  cases expression with
  | whole wholeWritten =>
      obtain ⟨formula, derived⟩ := Formula.exists_derives_of_written wholeWritten
      refine ⟨formula, body, body, split, .whole ?_, derived⟩
      intro operator isHead
      obtain ⟨token, rest, isBody, starts⟩ := Formula.starts_of_derives derived
      rw [isBody] at isHead
      exact starts operator (Option.some.inj isHead)
  | continued binary switchedOn nonempty restWritten =>
      obtain ⟨formula, derived⟩ := Formula.exists_derives_of_written restWritten
      have noSign := Bool.eq_false_iff.mpr fun isSign => binary (Operator.isSign_iff.mp isSign)
      exact ⟨formula, _, _, split, .fromLast noSign switchedOn nonempty, derived⟩

theorem written_of_derives {workspace : Workspace} {tokens : List Token} {targets : List String}
    {formula : Formula} {unit : Option DisplayUnit}
    (derived : Derives workspace tokens targets formula unit) : Written workspace tokens targets unit := by
  obtain ⟨body, completed, split, continues, formulaDerived⟩ := derived
  refine ⟨body, split, ?_⟩
  have formulaWritten := Formula.written_of_derives formulaDerived
  cases continues with
  | whole _ => exact .whole formulaWritten
  | fromLast noSign switchedOn nonempty =>
      refine .continued ?_ switchedOn nonempty formulaWritten
      intro isSubtract
      rw [Operator.isSign_iff.mpr isSubtract] at noSign
      cases noSign

theorem read_eq_ofTokens {workspace : Workspace} {text : String} {tokens : List Token}
    (scanned : Token.scan workspace.outputs.length text = .ok tokens) :
    read workspace text = ofTokens workspace tokens := by
  unfold read
  rw [scanned]
  rfl

theorem exists_scan {workspace : Workspace} {text : String} {line : Line}
    (accepted : read workspace text = .ok line) :
    ∃ tokens, Token.scan workspace.outputs.length text = .ok tokens ∧ ofTokens workspace tokens = .ok line :=
  bind_eq_ok_iff.mp accepted

/-- A line is accepted with some targets and a unit exactly if its lexemes are written with them. -/
theorem read_eq_ok_iff_written {workspace : Workspace} {text : String} {tokens : List Token}
    (scanned : Token.scan workspace.outputs.length text = .ok tokens) (targets : List String)
    (unit : Option DisplayUnit) :
    (∃ expression, read workspace text = .ok { targets, expression, displayUnit := unit }) ↔
      Written workspace tokens targets unit := by
  rw [read_eq_ofTokens scanned]
  constructor
  · intro ⟨expression, accepted⟩
    obtain ⟨formula, derived, _⟩ := exists_derives accepted
    exact written_of_derives derived
  · intro written
    obtain ⟨formula, derived⟩ := exists_derives_of_written written
    exact ⟨formula.normalize, ofTokens_of_derives derived⟩

/-- A workspace with `x` as its only result. -/
def afterUnknown : Workspace :=
  { Workspace.empty with outputs := [.var "x"] }

/-- The lexemes of `* (y - 2) ^ -x`. -/
def continuingTokens : List Token :=
  [.operator .multiply, .leftParen, .var "y", .operator .subtract, .quantity (.ofNumber (.exact 2)),
    .rightParen, .operator .raise, .operator .subtract, .var "x"]

theorem read_eq_ok_iff_written_continued :
    (∃ expression, read afterUnknown "a := b := * (y - 2) ^ -x" =
        .ok { targets := ["a", "b"], expression, displayUnit := none }) ∧
      ¬∃ targets unit, Written afterUnknown
        [.var "a", .assign, .leftParen, .var "y", .operator .subtract, .var "x"] targets unit := by
  have scanned : Token.scan afterUnknown.outputs.length "a := b := * (y - 2) ^ -x" =
      .ok (targetTokens ["a", "b"] ++ continuingTokens) := rfl
  have unclosed : Token.scan afterUnknown.outputs.length "a := (y - x" =
      .ok [.var "a", .assign, .leftParen, .var "y", .operator .subtract, .var "x"] := rfl
  have fails : read afterUnknown "a := (y - x" = .error .unclosedParen := rfl
  constructor
  · refine (read_eq_ok_iff_written scanned ["a", "b"] none).mpr ⟨continuingTokens, rfl, ?_⟩
    exact .continued (by decide) rfl (by decide) (Formula.written_of_derives (Formula.derives_of_ofTokens rfl))
  · intro ⟨targets, unit, written⟩
    obtain ⟨expression, accepted⟩ := (read_eq_ok_iff_written unclosed targets unit).mpr written
    rw [fails] at accepted
    cases accepted

end Line

end QuantityCalculator
