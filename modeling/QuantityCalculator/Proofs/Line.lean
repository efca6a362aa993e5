import QuantityCalculator.Line
import QuantityCalculator.Proofs.Formula.Descent

/-!
The grammar of lines.

A line is a formula, behind the variables that it is assigned to and in front of the unit to show it in.
What starts with an operator other than a sign continues from the last result.
-/

namespace QuantityCalculator.Line

def targetTokens (targets : List String) : List Token :=
  targets.flatMap fun name => [.var name, .assign]

def unitTokens (unit : Option DisplayUnit) : List Token :=
  unit.toList.map Token.displayUnit

/-- The lexemes of a line between its assignments and its unit, completed by the result that it continues
from. -/
inductive Continues (workspace : Workspace) : List Token → List Token → Prop where
  | whole {tokens : List Token} (starts : ∀ operator, tokens.head? = some (.operator operator) →
      operator.isSign = true) : Continues workspace tokens tokens
  | fromLast {operator : Operator} {rest : List Token} (noSign : operator.isSign = false)
      (switchedOn : workspace.settings.continuation = true) (nonempty : workspace.outputs ≠ []) :
      Continues workspace (.operator operator :: rest)
        (.output workspace.outputs.length :: .operator operator :: rest)

def Derives (workspace : Workspace) (tokens : List Token) (targets : List String) (formula : Formula)
    (unit : Option DisplayUnit) : Prop :=
  ∃ body continued, tokens = targetTokens targets ++ (body ++ unitTokens unit) ∧
    Continues workspace body continued ∧ Formula.Derives .sum continued formula

/-! ### Lexemes that no formula contains -/

def IsPart : Token → Prop
  | .displayUnit _ => False
  | .assign => False
  | _ => True

theorem isPart_of_derives {level : Formula.Level} {tokens : List Token} {formula : Formula}
    (written : Formula.Derives level tokens formula) : ∀ token, token ∈ tokens → IsPart token := by
  have joined : ∀ (first second : List Token) (operator : Operator),
      (∀ token, token ∈ first → IsPart token) → (∀ token, token ∈ second → IsPart token) →
        ∀ token, token ∈ first ++ .operator operator :: second → IsPart token := by
    intro first second operator inFirst inSecond token member
    rcases List.mem_append.mp member with before | after
    · exact inFirst token before
    · rcases List.mem_cons.mp after with same | later
      · rw [same]
        trivial
      · exact inSecond token later
  have alone : ∀ only : Token, IsPart only → ∀ token, token ∈ [only] → IsPart token :=
    fun only isPart token member => List.mem_singleton.mp member ▸ isPart
  induction written with
  | quantity value => exact alone _ trivial
  | var name => exact alone _ trivial
  | output index => exact alone _ trivial
  | minus _ ih =>
      intro token member
      rcases List.mem_cons.mp member with same | later
      · rw [same]
        trivial
      · exact ih token later
  | group _ ih =>
      intro token member
      rcases List.mem_cons.mp member with same | later
      · rw [same]
        trivial
      · rcases List.mem_append.mp later with inside | closing
        · exact ih token inside
        · exact alone .rightParen trivial token closing
  | power _ ih => exact ih
  | raise _ _ ihBase ihExponent => exact joined _ _ _ ihBase ihExponent
  | product _ ih => exact ih
  | multiply _ _ _ ihLeft ihRight => exact joined _ _ _ ihLeft ihRight
  | sum _ ih => exact ih
  | add _ _ _ ihLeft ihRight => exact joined _ _ _ ihLeft ihRight

/-! ### Splitting a line -/

theorem splitDisplayUnit_append {before : List Token}
    (noUnit : ∀ unit, Token.displayUnit unit ∉ before) (after : List Token) :
    splitDisplayUnit (before ++ after) =
      (splitDisplayUnit after).map fun split => (before ++ split.1, split.2) := by
  induction before with
  | nil =>
      change splitDisplayUnit after = _
      cases splitDisplayUnit after <;> rfl
  | cons token rest ih =>
      have later := ih fun unit member => noUnit unit (List.mem_cons_of_mem _ member)
      have passed : splitDisplayUnit (token :: (rest ++ after)) =
          (splitDisplayUnit (rest ++ after)).map fun split => (token :: split.1, split.2) := by
        cases token with
        | displayUnit unit => exact absurd List.mem_cons_self (noUnit unit)
        | _ => rfl
      rw [List.cons_append, passed, later]
      cases splitDisplayUnit after <;> rfl

theorem splitTargets_append (targets : List String) (body : List Token) :
    splitTargets (targetTokens targets ++ body) =
      (splitTargets body).map fun split => (targets ++ split.1, split.2) := by
  induction targets with
  | nil =>
      change splitTargets body = _
      cases splitTargets body <;> rfl
  | cons name rest ih =>
      change (splitTargets (targetTokens rest ++ body)).map _ = _
      rw [ih]
      cases splitTargets body <;> rfl

private theorem noUnit_of_targets (targets : List String) (unit : DisplayUnit) :
    Token.displayUnit unit ∉ targetTokens targets := by
  intro member
  obtain ⟨name, _, isOne⟩ := List.mem_flatMap.mp member
  rcases List.mem_cons.mp isOne with isVar | isAssign
  · cases isVar
  · cases List.mem_singleton.mp isAssign

/-- The variables in front of a line are assigned to besides those of the line. -/
theorem ofTokens_append (workspace : Workspace) (targets : List String) (tokens : List Token) :
    ofTokens workspace (targetTokens targets ++ tokens) =
      (ofTokens workspace tokens).map fun line => { line with targets := targets ++ line.targets } := by
  unfold ofTokens
  rw [splitDisplayUnit_append (noUnit_of_targets targets)]
  cases splitDisplayUnit tokens with
  | error cause => rfl
  | ok split =>
      obtain ⟨assigned, unit⟩ := split
      change (splitTargets (targetTokens targets ++ assigned) >>= _) =
        Except.map _ (splitTargets assigned >>= _)
      rw [splitTargets_append]
      cases splitTargets assigned with
      | error cause => rfl
      | ok split =>
          obtain ⟨names, written⟩ := split
          change (readExpression workspace written >>= _) = Except.map _ (readExpression workspace written >>= _)
          cases readExpression workspace written <;> rfl

/-- No variable is assigned to in front of an expression. -/
theorem splitTargets_of_noAssign {body : List Token} (noAssign : Token.assign ∉ body.tail) :
    splitTargets body = .ok ([], body) := by
  unfold splitTargets
  split
  · exact absurd List.mem_cons_self noAssign
  · exact absurd List.mem_cons_self noAssign
  · rfl

def leadingTokens : Option Expression → List Token
  | some (.output index) => [.output index]
  | _ => []

/-- The descent takes the result that a line continues from for the first operand, and for that one alone. -/
theorem ofTokens_leadingTokens {workspace : Workspace} {body : List Token} {leading : Option Expression}
    (found : leadingResult workspace body = .ok leading) :
    Expression.ofTokens leading body = Expression.ofTokens none (leadingTokens leading ++ body) := by
  have isOutput : leading = none ∨ ∃ index, leading = some (.output index) := by
    unfold leadingResult at found
    split at found
    · split at found
      · exact Or.inl (Except.ok.inj found).symm
      · split at found
        · exact Or.inr ⟨_, (Except.ok.inj found).symm⟩
        · cases found
    · exact Or.inl (Except.ok.inj found).symm
  rcases isOutput with rfl | ⟨index, rfl⟩
  · rfl
  · refine Expression.ofTokens_leading ?_
    rw [Expression.readOperand]
    rfl

/-- The formula of a line, behind the result that it continues from. -/
def readFormula (workspace : Workspace) (written : List Token) : Except ReadError Formula := do
  let leading ← leadingResult workspace written
  Formula.ofTokens (leadingTokens leading ++ written)

/-- The expression of a line is the normal form of its formula. -/
theorem readExpression_eq (workspace : Workspace) (written : List Token) :
    readExpression workspace written = (readFormula workspace written).map Formula.normalize := by
  unfold readExpression readFormula
  cases found : leadingResult workspace written with
  | error cause => rfl
  | ok leading => exact (ofTokens_leadingTokens found).trans (Formula.expression_ofTokens _)

/-- Lines are read by the formulas that they are written with. -/
theorem ofTokens_eq (workspace : Workspace) (tokens : List Token) :
    ofTokens workspace tokens = (do
      let (assigned, displayUnit) ← splitDisplayUnit tokens
      let (targets, written) ← splitTargets assigned
      let formula ← readFormula workspace written
      return { targets, expression := formula.normalize, displayUnit }) := by
  unfold ofTokens
  simp only [readExpression_eq]
  refine bind_congr fun split => bind_congr fun targets => ?_
  cases readFormula workspace targets.2 <;> rfl

theorem leadingResult_of_binary {workspace : Workspace} {operator : Operator} (noSign : operator.isSign = false)
    (switchedOn : workspace.settings.continuation = true) (nonempty : workspace.outputs ≠ []) (rest : List Token) :
    leadingResult workspace (.operator operator :: rest) = .ok (some (.output workspace.outputs.length)) := by
  have isEmpty : workspace.outputs.isEmpty = false := by
    cases stored : workspace.outputs with
    | nil => exact absurd stored nonempty
    | cons first others => rfl
  simp only [leadingResult, noSign, switchedOn, isEmpty, Bool.false_eq_true, if_false, Bool.not_false,
    Bool.and_self, if_true]

/-- A formula that continues is read as if the result that it continues from stood in front of it. -/
theorem readFormula_of_continues {workspace : Workspace} {body continued : List Token}
    (continues : Continues workspace body continued) :
    readFormula workspace body = Formula.ofTokens continued := by
  have fromLeading : ∀ leading, leadingResult workspace body = .ok leading →
      readFormula workspace body = Formula.ofTokens (leadingTokens leading ++ body) := by
    intro leading found
    rw [readFormula, found]
    rfl
  cases continues with
  | whole starts =>
      refine fromLeading none ?_
      cases body with
      | nil => rfl
      | cons token rest =>
          cases token with
          | operator operator => exact if_pos (starts operator rfl)
          | _ => rfl
  | @fromLast operator rest noSign switchedOn nonempty =>
      exact fromLeading (some (.output workspace.outputs.length))
        (leadingResult_of_binary noSign switchedOn nonempty rest)

theorem ofTokens_of_split {workspace : Workspace} {tokens written : List Token} {unit : Option DisplayUnit}
    (split : splitDisplayUnit tokens = .ok (written, unit))
    (noTargets : splitTargets written = .ok ([], written)) :
    ofTokens workspace tokens = (readExpression workspace written).map fun expression =>
      { targets := [], expression, displayUnit := unit } := by
  unfold ofTokens
  rw [split]
  change (splitTargets written >>= _) = _
  rw [noTargets]
  change (readExpression workspace written >>= _) = _
  cases readExpression workspace written <;> rfl

private theorem isPart_of_continues {workspace : Workspace} {body continued : List Token}
    (continues : Continues workspace body continued)
    (parts : ∀ token, token ∈ continued → IsPart token) : ∀ token, token ∈ body → IsPart token := by
  cases continues with
  | whole _ => exact parts
  | fromLast _ _ _ => exact fun token member => parts token (List.mem_cons_of_mem _ member)

/-- Without assignments a line is read as its formula, and as the unit behind it. -/
theorem ofTokens_of_parts {workspace : Workspace} {body continued : List Token} {unit : Option DisplayUnit}
    (parts : ∀ token, token ∈ body → IsPart token) (continues : Continues workspace body continued) :
    ofTokens workspace (body ++ unitTokens unit) = (Formula.ofTokens continued).map fun formula =>
      { targets := [], expression := formula.normalize, displayUnit := unit } := by
  have noUnit : ∀ other, Token.displayUnit other ∉ body := fun other member => parts _ member
  have noAssign : Token.assign ∉ body.tail := fun member => parts _ (List.mem_of_mem_tail member)
  have unitAlone : splitDisplayUnit (unitTokens unit) = .ok ([], unit) := by cases unit <;> rfl
  have split : splitDisplayUnit (body ++ unitTokens unit) = .ok (body, unit) := by
    rw [splitDisplayUnit_append noUnit, unitAlone]
    exact congrArg (fun written => Except.ok (written, unit)) (List.append_nil body)
  rw [ofTokens_of_split split (splitTargets_of_noAssign noAssign), readExpression_eq,
    readFormula_of_continues continues]
  cases Formula.ofTokens continued <;> rfl

/-- A line is read as what the grammar derives it from. -/
theorem ofTokens_of_derives {workspace : Workspace} {tokens : List Token} {targets : List String}
    {formula : Formula} {unit : Option DisplayUnit}
    (written : Derives workspace tokens targets formula unit) :
    ofTokens workspace tokens = .ok { targets, expression := formula.normalize, displayUnit := unit } := by
  obtain ⟨body, continued, rfl, continues, formulaWritten⟩ := written
  have parts := isPart_of_continues continues (isPart_of_derives formulaWritten)
  rw [ofTokens_append, ofTokens_of_parts parts continues, Formula.ofTokens_of_derives formulaWritten]
  exact congrArg (fun all => Except.ok (Line.mk all formula.normalize unit)) (List.append_nil targets)

/-! ### Accepted lines are derived -/

private theorem eq_append_of_splitDisplayUnit {tokens before : List Token} {unit : Option DisplayUnit}
    (split : splitDisplayUnit tokens = .ok (before, unit)) : tokens = before ++ unitTokens unit := by
  induction tokens generalizing before with
  | nil =>
      cases split
      rfl
  | cons token rest ih =>
      have passed : (splitDisplayUnit rest).map (fun result => (token :: result.1, result.2)) =
          .ok (before, unit) → token :: rest = before ++ unitTokens unit := by
        intro mapped
        cases later : splitDisplayUnit rest with
        | error cause =>
            rw [later] at mapped
            cases mapped
        | ok result =>
            obtain ⟨afterwards, found⟩ := result
            rw [later] at mapped
            cases mapped
            exact congrArg (token :: ·) (ih later)
      cases token with
      | displayUnit text =>
          cases rest with
          | nil =>
              cases split
              rfl
          | cons next others => cases split
      | _ => exact passed split

private theorem eq_append_of_splitTargets {tokens body : List Token} {targets : List String}
    (split : splitTargets tokens = .ok (targets, body)) : tokens = targetTokens targets ++ body := by
  fun_induction splitTargets tokens generalizing targets with
  | case1 name rest ih =>
      cases later : splitTargets rest with
      | error cause =>
          rw [later] at split
          cases split
      | ok result =>
          obtain ⟨names, afterwards⟩ := result
          rw [later] at split
          cases split
          exact congrArg (fun tokens => .var name :: .assign :: tokens) (ih later)
  | case2 _ _ _ => cases split
  | case3 _ _ =>
      cases split
      rfl

private theorem exists_continues {workspace : Workspace} {body : List Token} {formula : Formula}
    (accepted : readFormula workspace body = .ok formula) :
    ∃ continued, Continues workspace body continued := by
  cases body with
  | nil => exact ⟨[], .whole fun operator isHead => by cases isHead⟩
  | cons token rest =>
      cases token with
      | operator operator =>
          cases isSign : operator.isSign with
          | true =>
              refine ⟨_, .whole fun other isHead => ?_⟩
              cases isHead
              exact isSign
          | false =>
              cases mayContinue : workspace.settings.continuation && !workspace.outputs.isEmpty with
              | false =>
                  simp only [readFormula, leadingResult, isSign, mayContinue, Bool.false_eq_true,
                    if_false] at accepted
                  cases accepted
              | true =>
                  obtain ⟨switchedOn, nonempty⟩ := Bool.and_eq_true_iff.mp mayContinue
                  refine ⟨_, .fromLast isSign switchedOn fun empty => ?_⟩
                  rw [empty] at nonempty
                  cases nonempty
      | _ => exact ⟨_, .whole fun operator isHead => by cases isHead⟩

/-- An accepted line is derived by the grammar. -/
theorem exists_derives {workspace : Workspace} {tokens : List Token} {line : Line}
    (accepted : ofTokens workspace tokens = .ok line) :
    ∃ formula, Derives workspace tokens line.targets formula line.displayUnit ∧
      line.expression = formula.normalize := by
  rw [ofTokens_eq] at accepted
  obtain ⟨⟨assigned, unit⟩, splitUnit, withoutUnit⟩ := bind_eq_ok_iff.mp accepted
  obtain ⟨⟨targets, body⟩, splitNames, withoutNames⟩ := bind_eq_ok_iff.mp withoutUnit
  obtain ⟨formula, read, isLine⟩ := bind_eq_ok_iff.mp withoutNames
  cases isLine
  obtain ⟨continued, continues⟩ := exists_continues read
  rw [readFormula_of_continues continues] at read
  refine ⟨formula, ⟨body, continued, ?_, continues, Formula.derives_of_ofTokens read⟩, rfl⟩
  rw [eq_append_of_splitDisplayUnit splitUnit, eq_append_of_splitTargets splitNames, List.append_assoc]

end QuantityCalculator.Line
