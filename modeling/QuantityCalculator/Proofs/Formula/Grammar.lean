import QuantityCalculator.Proofs.Formula.Reading

/-!
The grammar of formulas.

Sums are made of products, products of powers, and powers of operands; a sign belongs to an operand.  Sums
and products group from the left, powers from the right.  Reading finds a formula in exactly the lexemes
that the grammar derives it from.
-/

namespace QuantityCalculator

namespace Formula

inductive Level where
  | operand
  | power
  | product
  | sum

/-- The level of what is made of operators of a precedence. -/
def Level.made : Precedence → Level
  | .sum => .sum
  | .product => .product
  | .power => .power

/-- The level of the operands of a precedence. -/
def Level.joined : Precedence → Level
  | .sum => .product
  | .product => .power
  | .power => .operand

inductive Derives : Level → List Token → Formula → Prop where
  | quantity (value : Quantity) : Derives .operand [.quantity value] (.quantity value)
  | var (name : String) : Derives .operand [.var name] (.var name)
  | output (index : Nat) : Derives .operand [.output index] (.output index)
  | minus {tokens : List Token} {operand : Formula} (written : Derives .operand tokens operand) :
      Derives .operand (.operator .subtract :: tokens) (.minus operand)
  | group {tokens : List Token} {content : Formula} (written : Derives .sum tokens content) :
      Derives .operand (.leftParen :: (tokens ++ [.rightParen])) (.group content)
  | power {tokens : List Token} {operand : Formula} (written : Derives .operand tokens operand) :
      Derives .power tokens operand
  | raise {first second : List Token} {base exponent : Formula}
      (baseWritten : Derives .operand first base) (exponentWritten : Derives .power second exponent) :
      Derives .power (first ++ .operator .raise :: second) (.binary .raise base exponent)
  | product {tokens : List Token} {power : Formula} (written : Derives .power tokens power) :
      Derives .product tokens power
  | multiply {first second : List Token} {left right : Formula} {operator : Operator}
      (isProduct : operator.precedence = .product) (leftWritten : Derives .product first left)
      (rightWritten : Derives .power second right) :
      Derives .product (first ++ .operator operator :: second) (.binary operator left right)
  | sum {tokens : List Token} {product : Formula} (written : Derives .product tokens product) :
      Derives .sum tokens product
  | add {first second : List Token} {left right : Formula} {operator : Operator}
      (isSum : operator.precedence = .sum) (leftWritten : Derives .sum first left)
      (rightWritten : Derives .product second right) :
      Derives .sum (first ++ .operator operator :: second) (.binary operator left right)

/-! ### Formulas as sequences of operands -/

/-- The operands of a formula outside of parentheses, each later one with the operator in front of it. -/
def sequence : Formula → Formula × Tail
  | .binary operator left right =>
    (left.sequence.1, left.sequence.2 ++ (operator, right.sequence.1) :: right.sequence.2)
  | operand => (operand, [])

private theorem sequence_of_derives_operand {tokens : List Token} {formula : Formula}
    (written : Derives .operand tokens formula) : formula.sequence = (formula, []) := by
  cases written <;> rfl

def Leads (tail : Tail) (holds : Operator → Prop) : Prop :=
  ∀ step, tail.head? = some step → holds step.1

def powersOfTail : Tail → Tail
  | [] => []
  | (operator, next) :: rest =>
    (operator, (groupPowers next rest).1) :: (groupPowers next rest).2

theorem groupPowers_of_leads {first : Formula} {tail : Tail} (leads : Leads tail (· ≠ .raise)) :
    groupPowers first tail = (first, powersOfTail tail) := by
  cases tail with
  | nil => rfl
  | cons step rest =>
      have noRaise : step.1 ≠ .raise := leads step rfl
      unfold groupPowers
      exact if_neg noRaise

private theorem groupPowers_power {tokens : List Token} {formula : Formula}
    (written : Derives .power tokens formula) {rest : Tail} (leads : Leads rest (· ≠ .raise)) :
    groupPowers formula.sequence.1 (formula.sequence.2 ++ rest) = (formula, powersOfTail rest) := by
  generalize isPower : Level.power = level at written
  induction written with
  | power operandWritten _ =>
      rw [sequence_of_derives_operand operandWritten]
      exact groupPowers_of_leads leads
  | @raise _ _ base exponent baseWritten exponentWritten _ ih =>
      simp only [sequence, sequence_of_derives_operand baseWritten, List.nil_append, List.cons_append,
        groupPowers, ih rfl, if_pos]
  | _ => cases isPower

def groupAll (first : Formula) (tail : Tail) : Formula × Tail :=
  groupProducts (groupPowers first tail).1 (groupPowers first tail).2

def productsOfTail : Tail → Tail
  | [] => []
  | (operator, next) :: rest => (operator, (groupAll next rest).1) :: (groupAll next rest).2

private theorem groupAll_product_of_leads_noRaise {tokens : List Token} {formula : Formula}
    (written : Derives .product tokens formula) {rest : Tail} (leads : Leads rest (· ≠ .raise)) :
    groupAll formula.sequence.1 (formula.sequence.2 ++ rest) =
      groupProducts formula (powersOfTail rest) := by
  generalize isOfProduct : Level.product = level at written
  induction written generalizing rest with
  | product powerWritten _ =>
      unfold groupAll
      rw [groupPowers_power powerWritten leads]
  | @multiply _ _ left right operator isProduct leftWritten rightWritten ihLeft _ =>
      have leadsAgain : Leads ((operator, right.sequence.1) :: (right.sequence.2 ++ rest)) (· ≠ .raise) := by
        intro step isHead
        rw [← Option.some.inj isHead]
        rintro rfl
        cases isProduct
      have joined : groupProducts left
          (powersOfTail ((operator, right.sequence.1) :: (right.sequence.2 ++ rest))) =
            groupProducts (.binary operator left right) (powersOfTail rest) := by
        simp only [powersOfTail, groupPowers_power rightWritten leads, groupProducts, if_pos isProduct]
      rw [← joined, ← ihLeft leadsAgain rfl]
      simp only [sequence, List.append_assoc, List.cons_append]
  | _ => cases isOfProduct

private theorem groupAll_product {tokens : List Token} {formula : Formula}
    (written : Derives .product tokens formula) {rest : Tail}
    (leads : Leads rest (·.precedence = .sum)) :
    groupAll formula.sequence.1 (formula.sequence.2 ++ rest) = (formula, productsOfTail rest) := by
  have noRaise : Leads rest (· ≠ .raise) := by
    intro step isHead isRaise
    have isSum := leads step isHead
    rw [isRaise] at isSum
    cases isSum
  rw [groupAll_product_of_leads_noRaise written noRaise]
  cases rest with
  | nil => rfl
  | cons step rest =>
      have noProduct : step.1.precedence ≠ .product := by
        rw [leads step rfl]
        decide
      unfold powersOfTail groupProducts
      exact if_neg noProduct

theorem ofSequence_append {tokens : List Token} {formula : Formula}
    (written : Derives .sum tokens formula) {rest : Tail} (leads : Leads rest (·.precedence = .sum)) :
    ofSequence formula.sequence.1 (formula.sequence.2 ++ rest) =
      joinFromLeft formula (productsOfTail rest) := by
  generalize isOfSum : Level.sum = level at written
  induction written generalizing rest with
  | sum productWritten _ =>
      change joinFromLeft (groupAll _ _).1 (groupAll _ _).2 = _
      rw [groupAll_product productWritten leads]
  | @add _ _ left right operator isSum leftWritten rightWritten ihLeft _ =>
      have leadsAgain : Leads ((operator, right.sequence.1) :: (right.sequence.2 ++ rest))
          (·.precedence = .sum) := by
        intro step isHead
        rw [← Option.some.inj isHead]
        exact isSum
      have joined : joinFromLeft left
          (productsOfTail ((operator, right.sequence.1) :: (right.sequence.2 ++ rest))) =
            joinFromLeft (.binary operator left right) (productsOfTail rest) := by
        simp only [productsOfTail, groupAll_product rightWritten leads, joinFromLeft, List.foldl_cons]
      rw [← joined, ← ihLeft leadsAgain rfl]
      simp only [sequence, List.append_assoc, List.cons_append]
  | _ => cases isOfSum

/-- Grouping the operands of a derived formula gives back the formula. -/
theorem ofSequence_sequence {tokens : List Token} {formula : Formula}
    (written : Derives .sum tokens formula) :
    ofSequence formula.sequence.1 formula.sequence.2 = formula := by
  have none : Leads [] (·.precedence = .sum) := fun step isHead => by cases isHead
  have whole := ofSequence_append written none
  rwa [List.append_nil] at whole

/-! ### Derived formulas are read -/

/-- What has been read of a group after a further sequence of operands: the operands with the operators
behind them, and the last one. -/
def push (read : List (Formula × Operator)) (first : Formula) : Tail → List (Formula × Operator) × Formula
  | [] => (read, first)
  | (operator, next) :: rest => push ((first, operator) :: read) next rest

theorem push_append (read : List (Formula × Operator)) (first : Formula) (tail rest : Tail) :
    push read first (tail ++ rest) = push (push read first tail).1 (push read first tail).2 rest := by
  induction tail generalizing read first with
  | nil => rfl
  | cons step tail ih => exact ih _ _

private theorem unread_push (read : List (Formula × Operator)) (first : Formula) (tail rest : Tail) :
    unread (push read first tail).2 rest (push read first tail).1 = unread first (tail ++ rest) read := by
  induction tail generalizing read first with
  | nil => rfl
  | cons step tail ih => exact ih _ _

private theorem close_push {tokens : List Token} {formula : Formula} (written : Derives .sum tokens formula) :
    close (push [] formula.sequence.1 formula.sequence.2).1
      (push [] formula.sequence.1 formula.sequence.2).2 = formula := by
  unfold close
  rw [unread_push, List.append_nil]
  exact ofSequence_sequence written

private theorem signed_succ (signs : Nat) (formula : Formula) :
    signed (signs + 1) formula = signed signs (.minus formula) := by
  induction signs with
  | zero => rfl
  | succ signs ih => exact congrArg Formula.minus ih

/-- How lexemes that a formula is derived from are read.  Signs that have been read before can only belong
to an operand. -/
def ReadsAs : Level → List Token → Formula → Prop
  | .operand, tokens, formula => ∀ enclosing here rest,
      readOperand enclosing here (tokens ++ rest) =
        readOperator enclosing here.read (signed here.signs formula) rest
  | _, tokens, formula => ∀ enclosing read rest,
      readOperand enclosing { read, signs := 0 } (tokens ++ rest) =
        readOperator enclosing (push read formula.sequence.1 formula.sequence.2).1
          (push read formula.sequence.1 formula.sequence.2).2 rest

private theorem binary_readsAs {first second : List Token} {left right : Formula} {operator : Operator}
    (leftReads : ∀ enclosing read rest,
      readOperand enclosing { read, signs := 0 } (first ++ rest) =
        readOperator enclosing (push read left.sequence.1 left.sequence.2).1
          (push read left.sequence.1 left.sequence.2).2 rest)
    (rightReads : ∀ enclosing read rest,
      readOperand enclosing { read, signs := 0 } (second ++ rest) =
        readOperator enclosing (push read right.sequence.1 right.sequence.2).1
          (push read right.sequence.1 right.sequence.2).2 rest)
    (enclosing : List Partial) (read : List (Formula × Operator)) (rest : List Token) :
    readOperand enclosing { read, signs := 0 } (first ++ .operator operator :: second ++ rest) =
      readOperator enclosing
        (push read (Formula.binary operator left right).sequence.1
          (Formula.binary operator left right).sequence.2).1
        (push read (Formula.binary operator left right).sequence.1
          (Formula.binary operator left right).sequence.2).2 rest := by
  rw [List.append_assoc, leftReads, List.cons_append]
  simp only [readOperator, rightReads, sequence, push_append, push]

private theorem readsAs_of_derives {level : Level} {tokens : List Token} {formula : Formula}
    (written : Derives level tokens formula) : ReadsAs level tokens formula := by
  induction written with
  | quantity value => exact fun enclosing here rest => rfl
  | var name => exact fun enclosing here rest => rfl
  | output index => exact fun enclosing here rest => rfl
  | @minus tokens operand _ ih =>
      intro enclosing here rest
      simp only [List.cons_append, readOperand]
      rw [ih enclosing { here with signs := here.signs + 1 } rest, signed_succ]
  | @group tokens content written ih =>
      intro enclosing here rest
      simp only [List.cons_append, List.nil_append, List.append_assoc, readOperand, Partial.start]
      rw [ih (here :: enclosing) [] (.rightParen :: rest)]
      simp only [readOperator, close_push written]
  | @power tokens operand written ih =>
      intro enclosing read rest
      rw [ih enclosing { read, signs := 0 } rest, sequence_of_derives_operand written]
      rfl
  | @raise first second base exponent baseWritten _ ihBase ihExponent =>
      apply binary_readsAs _ ihExponent
      intro enclosing read rest
      rw [ihBase enclosing { read, signs := 0 } rest, sequence_of_derives_operand baseWritten]
      rfl
  | product _ ih => exact ih
  | multiply _ _ _ ihLeft ihRight => exact binary_readsAs ihLeft ihRight
  | sum _ ih => exact ih
  | add _ _ _ ihLeft ihRight => exact binary_readsAs ihLeft ihRight

/-- Lexemes of any level are read on from as a sequence of operands. -/
theorem readOperand_of_derives {level : Level} {tokens : List Token} {formula : Formula}
    (written : Derives level tokens formula) (enclosing : List Partial) (read : List (Formula × Operator))
    (rest : List Token) :
    readOperand enclosing { read, signs := 0 } (tokens ++ rest) =
      readOperator enclosing (push read formula.sequence.1 formula.sequence.2).1
        (push read formula.sequence.1 formula.sequence.2).2 rest := by
  have reads := readsAs_of_derives written
  cases level with
  | operand =>
      rw [sequence_of_derives_operand written]
      exact reads enclosing { read, signs := 0 } rest
  | _ => exact reads enclosing read rest

/-- Lexemes are read as the formula that they are derived from. -/
theorem ofTokens_of_derives {tokens : List Token} {formula : Formula}
    (written : Derives .sum tokens formula) : ofTokens tokens = .ok formula := by
  have reads := readsAs_of_derives written [] [] []
  rw [List.append_nil] at reads
  refine reads.trans ?_
  unfold readOperator
  rw [close_push written]
  rfl

/-! ### Formulas that are read are derived -/

inductive Spells (level : Level) : Tail → List Token → Prop where
  | nil : Spells level [] []
  | cons {operator : Operator} {next : Formula} {tail : Tail} {first second : List Token}
      (nextWritten : Derives level first next) (tailSpelled : Spells level tail second) :
      Spells level ((operator, next) :: tail) (.operator operator :: (first ++ second))

private theorem precedence_ne_power {operator : Operator} (noRaise : operator ≠ .raise) :
    operator.precedence ≠ .power := by
  cases operator with
  | raise => exact absurd rfl noRaise
  | _ => decide

private theorem groupPowers_derives {first : Formula} {tail : Tail} {before after : List Token}
    (firstWritten : Derives .operand before first) (tailSpelled : Spells .operand tail after) :
    ∃ power powers, before ++ after = power ++ powers ∧
      Derives .power power (groupPowers first tail).1 ∧ Spells .power (groupPowers first tail).2 powers ∧
        ∀ step, step ∈ (groupPowers first tail).2 → step.1.precedence ≠ .power := by
  induction tailSpelled generalizing first before with
  | nil => exact ⟨before, [], rfl, .power firstWritten, .nil, fun step member => by cases member⟩
  | @cons operator next tail nextTokens tailTokens nextWritten _ ih =>
      obtain ⟨power, powers, split, powerWritten, powersSpelled, noPower⟩ := ih nextWritten
      unfold groupPowers
      by_cases isRaise : operator = .raise
      · subst isRaise
        simp only [if_pos]
        refine ⟨before ++ .operator .raise :: power, powers, ?_, .raise firstWritten powerWritten,
          powersSpelled, noPower⟩
        rw [split, List.append_assoc, List.cons_append]
      · simp only [if_neg isRaise]
        refine ⟨before, .operator operator :: (power ++ powers), ?_, .power firstWritten,
          .cons powerWritten powersSpelled, ?_⟩
        · rw [split]
        · intro step member
          rcases List.mem_cons.mp member with same | later
          · rw [same]
            exact precedence_ne_power isRaise
          · exact noPower step later

private theorem groupProducts_derives {first : Formula} {tail : Tail} {before after : List Token}
    (firstWritten : Derives .product before first) (tailSpelled : Spells .power tail after)
    (noPower : ∀ step, step ∈ tail → step.1.precedence ≠ .power) :
    ∃ product products, before ++ after = product ++ products ∧
      Derives .product product (groupProducts first tail).1 ∧
        Spells .product (groupProducts first tail).2 products ∧
          ∀ step, step ∈ (groupProducts first tail).2 → step.1.precedence = .sum := by
  induction tailSpelled generalizing first before with
  | nil => exact ⟨before, [], rfl, firstWritten, .nil, fun step member => by cases member⟩
  | @cons operator next tail nextTokens tailTokens nextWritten _ ih =>
      have later : ∀ step, step ∈ tail → step.1.precedence ≠ .power :=
        fun step member => noPower step (List.mem_cons_of_mem _ member)
      unfold groupProducts
      by_cases isProduct : operator.precedence = .product
      · obtain ⟨product, products, split, productWritten, productsSpelled, isSum⟩ :=
          ih (.multiply isProduct firstWritten nextWritten) later
        simp only [if_pos isProduct]
        refine ⟨product, products, ?_, productWritten, productsSpelled, isSum⟩
        rw [← split, List.append_assoc, List.cons_append]
      · obtain ⟨product, products, split, productWritten, productsSpelled, isSum⟩ :=
          ih (.product nextWritten) later
        simp only [if_neg isProduct]
        refine ⟨before, .operator operator :: (product ++ products), ?_, firstWritten,
          .cons productWritten productsSpelled, ?_⟩
        · rw [split]
        · intro step member
          rcases List.mem_cons.mp member with same | inLater
          · have notPower : operator.precedence ≠ .power := noPower (operator, next) List.mem_cons_self
            rw [same]
            cases precedence : operator.precedence with
            | sum => rfl
            | product => exact absurd precedence isProduct
            | power => exact absurd precedence notPower
          · exact isSum step inLater

theorem joinFromLeft_derives {level ofOperand : Level} {precedence : Precedence}
    (join : ∀ {first second : List Token} {left right : Formula} {operator : Operator},
      operator.precedence = precedence → Derives level first left → Derives ofOperand second right →
        Derives level (first ++ .operator operator :: second) (.binary operator left right))
    {first : Formula} {tail : Tail} {before after : List Token} (firstWritten : Derives level before first)
    (tailSpelled : Spells ofOperand tail after)
    (single : ∀ step, step ∈ tail → step.1.precedence = precedence) :
    Derives level (before ++ after) (joinFromLeft first tail) := by
  induction tailSpelled generalizing first before with
  | nil =>
      rw [List.append_nil]
      exact firstWritten
  | @cons operator next tail nextTokens tailTokens nextWritten _ ih =>
      have isOne : operator.precedence = precedence := single (operator, next) List.mem_cons_self
      have joined := ih (join isOne firstWritten nextWritten)
        fun step member => single step (List.mem_cons_of_mem _ member)
      rw [List.append_assoc, List.cons_append] at joined
      exact joined

private theorem ofSequence_derives {first : Formula} {tail : Tail} {before after : List Token}
    (firstWritten : Derives .operand before first) (tailSpelled : Spells .operand tail after) :
    Derives .sum (before ++ after) (ofSequence first tail) := by
  obtain ⟨power, powers, split, powerWritten, powersSpelled, noPower⟩ :=
    groupPowers_derives firstWritten tailSpelled
  obtain ⟨product, products, splitAgain, productWritten, productsSpelled, isSum⟩ :=
    groupProducts_derives (.product powerWritten) powersSpelled noPower
  rw [split, splitAgain]
  exact joinFromLeft_derives .add (.sum productWritten) productsSpelled isSum

inductive Begun : List (Formula × Operator) → List Token → Prop where
  | nil : Begun [] []
  | cons {read : List (Formula × Operator)} {operand : Formula} {operator : Operator}
      {first second : List Token} (readBegun : Begun read first)
      (operandWritten : Derives .operand second operand) :
      Begun ((operand, operator) :: read) (first ++ (second ++ [.operator operator]))

private theorem unread_derives {read : List (Formula × Operator)} {last : Formula} {tail : Tail}
    {before middle after : List Token} (readBegun : Begun read before)
    (lastWritten : Derives .operand middle last) (tailSpelled : Spells .operand tail after) :
    Derives .sum (before ++ (middle ++ after))
      (ofSequence (unread last tail read).1 (unread last tail read).2) := by
  induction readBegun generalizing last tail middle after with
  | nil =>
      rw [List.nil_append]
      exact ofSequence_derives lastWritten tailSpelled
  | @cons read operand operator first second _ operandWritten ih =>
      have longer : Spells .operand ((operator, last) :: tail) (.operator operator :: (middle ++ after)) :=
        .cons lastWritten tailSpelled
      have derived := ih operandWritten longer
      simp only [List.append_assoc, List.cons_append, List.nil_append]
      exact derived

def signTokens (signs : Nat) : List Token :=
  List.replicate signs (.operator .subtract)

private theorem signed_derives {signs : Nat} {tokens : List Token} {operand : Formula}
    (written : Derives .operand tokens operand) :
    Derives .operand (signTokens signs ++ tokens) (signed signs operand) := by
  induction signs with
  | zero => exact written
  | succ signs ih => exact .minus ih

inductive Opened : List Partial → List Token → Prop where
  | nil : Opened [] []
  | cons {outer : Partial} {others : List Partial} {first second : List Token}
      (othersOpened : Opened others first) (outerBegun : Begun outer.read second) :
      Opened (outer :: others) (first ++ (second ++ (signTokens outer.signs ++ [.leftParen])))

private theorem signTokens_succ (signs : Nat) :
    signTokens (signs + 1) = signTokens signs ++ [.operator .subtract] :=
  List.replicate_succ'

/-- What has been read stays derived while reading goes on, in front of an operand as well as behind
one. -/
theorem read_derives (tokens : List Token) :
    (∀ enclosing here before current formula, Opened enclosing before → Begun here.read current →
      readOperand enclosing here tokens = .ok formula →
        Derives .sum (before ++ (current ++ (signTokens here.signs ++ tokens))) formula) ∧
    (∀ enclosing read last before current middle formula, Opened enclosing before →
      Begun read current → Derives .operand middle last →
        readOperator enclosing read last tokens = .ok formula →
          Derives .sum (before ++ (current ++ (middle ++ tokens))) formula) := by
  induction tokens with
  | nil =>
      constructor
      · intro enclosing here before current formula _ _ accepted
        cases accepted
      · intro enclosing read last before current middle formula opened begun written accepted
        cases opened with
        | nil =>
            rw [← Except.ok.inj accepted, List.nil_append]
            exact unread_derives begun written .nil
        | cons _ _ => cases accepted
  | cons token rest ih =>
      obtain ⟨ihOperand, ihOperator⟩ := ih
      constructor
      · intro enclosing here before current formula opened begun accepted
        have single : ∀ operand, Derives .operand [token] operand →
            readOperator enclosing here.read (signed here.signs operand) rest = .ok formula →
              Derives .sum (before ++ (current ++ (signTokens here.signs ++ token :: rest))) formula := by
          intro operand written readOn
          have derived := ihOperator enclosing here.read _ before current _ formula opened begun
            (signed_derives written) readOn
          rwa [List.append_assoc, List.cons_append, List.nil_append] at derived
        cases token with
        | quantity value => exact single _ (.quantity value) accepted
        | var name => exact single _ (.var name) accepted
        | output index => exact single _ (.output index) accepted
        | leftParen =>
            have derived := ihOperand (here :: enclosing) Partial.start _ [] formula
              (.cons opened begun) .nil accepted
            simpa only [List.append_assoc, List.cons_append, List.nil_append, Partial.start, signTokens,
              List.replicate_zero] using derived
        | operator operator =>
            cases operator with
            | subtract =>
                have derived := ihOperand enclosing { here with signs := here.signs + 1 } before current
                  formula opened begun accepted
                rwa [signTokens_succ, List.append_assoc, List.cons_append, List.nil_append] at derived
            | _ => cases accepted
        | _ => cases accepted
      · intro enclosing read last before current middle formula opened begun written accepted
        cases token with
        | rightParen =>
            cases opened with
            | nil => cases accepted
            | @cons outer others first second othersOpened outerBegun =>
                have content := unread_derives begun written .nil
                have derived := ihOperator others outer.read _ first second _ formula othersOpened outerBegun
                  (signed_derives (.group content)) accepted
                simpa only [List.append_assoc, List.cons_append, List.nil_append] using derived
        | operator operator =>
            have derived := ihOperand enclosing { read := (last, operator) :: read, signs := 0 } before _
              formula opened (.cons begun written) accepted
            simpa only [List.append_assoc, List.cons_append, List.nil_append, signTokens,
              List.replicate_zero] using derived
        | _ => cases accepted

/-- A formula that is read from lexemes is derived from them. -/
theorem derives_of_ofTokens {tokens : List Token} {formula : Formula}
    (accepted : ofTokens tokens = .ok formula) : Derives .sum tokens formula :=
  (read_derives tokens).1 [] Partial.start [] [] formula .nil .nil accepted

end Formula

end QuantityCalculator
