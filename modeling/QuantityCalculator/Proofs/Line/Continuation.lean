import QuantityCalculator.Proofs.Line.Acceptance

/-!
Continuing from the last result.

An expression that starts with a binary operator has the last result as its first operand.  Reading goes on
behind that operand, and finds what it finds in a line that names the result in front of the operator.
-/

namespace QuantityCalculator.Line

/-- Whether the lexeme in front of these is assigned to: an assignment sign comes first, and a display unit at
most last. -/
def IsAssigned (rest : List Token) : Prop :=
  ∃ later unit, splitDisplayUnit rest = .ok (.assign :: later, unit)

/-- An expression that starts with an operator, with the last result named in front of it. -/
def nameLast (workspace : Workspace) (operator : Operator) (rest : List Token) : List Token :=
  .output workspace.outputs.length :: .operator operator :: rest

variable {workspace : Workspace} {operator : Operator} {rest : List Token}

/-! ### Expressions -/

/-- The last result is the first operand of a continued expression, and of that operand alone: the descent hands it
down as the leading expression, and reads on as if it stood in front of the operator. -/
theorem readExpression_continued (binary : operator ≠ .subtract)
    (switchedOn : workspace.settings.continuation = true) (nonempty : workspace.outputs ≠ []) :
    readExpression workspace (.operator operator :: rest) =
      readExpression workspace (nameLast workspace operator rest) := by
  have noSign : operator.isSign = false :=
    Bool.eq_false_iff.mpr fun isSign => binary (Operator.isSign_iff.mp isSign)
  have continues := leadingResult_of_binary noSign switchedOn nonempty rest
  have named : leadingResult workspace (nameLast workspace operator rest) = .ok none := rfl
  rw [readExpression, readExpression, continues, named]
  exact ofTokens_leadingTokens continues

/-! ### Lines -/

private theorem splitDisplayUnit_operator (operator : Operator) (rest : List Token) :
    splitDisplayUnit (.operator operator :: rest) =
      (splitDisplayUnit rest).map fun split => (.operator operator :: split.1, split.2) :=
  @splitDisplayUnit_append [.operator operator] (fun unit member => by simp at member) rest

private theorem splitDisplayUnit_nameLast (operator : Operator) (rest : List Token) :
    splitDisplayUnit (nameLast workspace operator rest) =
      (splitDisplayUnit rest).map fun split => (nameLast workspace operator split.1, split.2) :=
  @splitDisplayUnit_append [.output workspace.outputs.length, .operator operator]
    (fun unit member => by simp at member) rest

private theorem splitTargets_operator {tail : List Token} (free : ∀ later, tail ≠ .assign :: later) :
    splitTargets (.operator operator :: tail) = .ok ([], .operator operator :: tail) := by
  cases tail with
  | nil => rfl
  | cons token later =>
      cases token with
      | assign => exact absurd rfl (free later)
      | _ => rfl

private theorem ofTokens_continued (binary : operator ≠ .subtract)
    (switchedOn : workspace.settings.continuation = true) (nonempty : workspace.outputs ≠ [])
    (free : ¬IsAssigned rest) :
    ofTokens workspace (.operator operator :: rest) =
      ofTokens workspace (nameLast workspace operator rest) := by
  cases split : splitDisplayUnit rest with
  | error cause =>
      unfold ofTokens
      rw [splitDisplayUnit_operator, splitDisplayUnit_nameLast, split]
      rfl
  | ok parts =>
      obtain ⟨tail, unit⟩ := parts
      have unassigned : ∀ later, tail ≠ .assign :: later := by
        rintro later rfl
        exact free ⟨later, unit, split⟩
      have continued : splitDisplayUnit (.operator operator :: rest) = .ok (.operator operator :: tail, unit) := by
        rw [splitDisplayUnit_operator, split]
        rfl
      have named : splitDisplayUnit (nameLast workspace operator rest) =
          .ok (nameLast workspace operator tail, unit) := by
        rw [splitDisplayUnit_nameLast, split]
        rfl
      rw [ofTokens_of_split continued (splitTargets_operator unassigned), ofTokens_of_split named rfl,
        readExpression_continued binary switchedOn nonempty]

/-- An operator cannot be assigned to.  With the last result in front of it, it is its second operand that is
missing. -/
theorem ofTokens_assigned (assigned : IsAssigned rest) :
    ofTokens workspace (.operator operator :: rest) =
        .error (.notAssignable (Token.operator operator).describe) ∧
      ofTokens workspace (nameLast workspace operator rest) = .error (.notAValue Token.assign.describe) := by
  obtain ⟨later, unit, split⟩ := assigned
  constructor
  · unfold ofTokens
    rw [splitDisplayUnit_operator, split]
    rfl
  · have named : splitDisplayUnit (nameLast workspace operator rest) =
        .ok (nameLast workspace operator (.assign :: later), unit) := by
      rw [splitDisplayUnit_nameLast, split]
      rfl
    rw [ofTokens_of_split named rfl, readExpression_eq]
    rfl

/-- A line whose expression starts with a binary operator is read as if it named the last result in front of that
operator, unless the operator is assigned to. -/
theorem read_continued {text : String} {targets : List String} (binary : operator ≠ .subtract)
    (switchedOn : workspace.settings.continuation = true) (nonempty : workspace.outputs ≠ [])
    (scanned : Token.scan workspace.outputs.length text =
      .ok (targetTokens targets ++ .operator operator :: rest)) :
    (¬IsAssigned rest →
      read workspace text = ofTokens workspace (targetTokens targets ++ nameLast workspace operator rest)) ∧
    (IsAssigned rest →
      read workspace text = .error (.notAssignable (Token.operator operator).describe) ∧
        ofTokens workspace (targetTokens targets ++ nameLast workspace operator rest) =
          .error (.notAValue Token.assign.describe)) := by
  rw [read_eq_ofTokens scanned, ofTokens_append, ofTokens_append]
  constructor
  · intro free
    rw [ofTokens_continued binary switchedOn nonempty free]
  · intro assigned
    obtain ⟨continued, named⟩ := ofTokens_assigned assigned
    rw [continued, named]
    exact ⟨rfl, rfl⟩

/-- The lexemes of `/ -y ^ 2` behind the operator. -/
def dividingTokens : List Token :=
  [.operator .subtract, .var "y", .operator .raise, .quantity (.ofNumber (.exact 2))]

theorem read_continued_afterUnknown :
    read afterUnknown "a := b := / -y ^ 2" =
        ofTokens afterUnknown (targetTokens ["a", "b"] ++ nameLast afterUnknown .divide dividingTokens) ∧
      read afterUnknown "a := / := y" = .error (.notAssignable "operator /") := by
  have continued : Token.scan afterUnknown.outputs.length "a := b := / -y ^ 2" =
      .ok (targetTokens ["a", "b"] ++ .operator .divide :: dividingTokens) := rfl
  have assigned : Token.scan afterUnknown.outputs.length "a := / := y" =
      .ok (targetTokens ["a"] ++ .operator .divide :: [.assign, .var "y"]) := rfl
  constructor
  · refine (read_continued (by decide) rfl (by decide) continued).1 ?_
    rintro ⟨later, unit, split⟩
    cases split
  · exact ((read_continued (by decide) rfl (by decide) assigned).2 ⟨_, _, rfl⟩).1

/-- The operator of the line `+ := y` is a target that cannot be assigned to; with the result `[1]` in front of it,
the assignment sign stands where its second operand is due. -/
theorem assignedOperator_differs :
    afterUnknown.settings.continuation = true ∧ afterUnknown.outputs ≠ [] ∧
      Token.scan afterUnknown.outputs.length "+ := y" = .ok [.operator .add, .assign, .var "y"] ∧
        read afterUnknown "+ := y" ≠ ofTokens afterUnknown [.output 1, .operator .add, .assign, .var "y"] := by
  have target : read afterUnknown "+ := y" = .error (.notAssignable "operator +") := rfl
  have operand : ofTokens afterUnknown [.output 1, .operator .add, .assign, .var "y"] =
      .error (.notAValue "assignment") := rfl
  refine ⟨rfl, by decide, rfl, fun same => ?_⟩
  rw [target, operand] at same
  cases same

end QuantityCalculator.Line
