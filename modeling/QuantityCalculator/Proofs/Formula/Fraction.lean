import QuantityCalculator.Proofs.Formula.Grammar
import QuantityCalculator.Proofs.Token.Arithmetic

/-!
Fractions in formulas.

A stroke between two numerals makes a fraction where no blanks stand around it, and a division where they do.
As long as no fraction stands beside a power or behind a division, the formulas differ in nothing else: what is
divided by the denominator is the numerator alone, or a product that ends with it.
-/

namespace QuantityCalculator

namespace Piece

/-- Whether what is written behind an operator is bound to it alone: it is a divisor or an exponent. -/
def isTight : Operator → Bool
  | .divide => true
  | .raise => true
  | _ => false

/-- Whether a divisor or an exponent begins behind a piece.  `tight` tells whether one has begun in front of it,
which signs do not end. -/
def tightBehind (tight : Bool) : Piece → Bool
  | .operator .subtract => tight
  | .operator op => isTight op
  | _ => false

/-- No fraction is a divisor, an exponent or a base, and none begins one. -/
def FractionsApart (tight : Bool) : List Fused → Prop
  | [] => True
  | .piece single :: rest => FractionsApart (single.tightBehind tight) rest
  | .fraction _ _ :: rest =>
    tight = false ∧ rest.head? ≠ some (.piece (.operator .raise)) ∧ FractionsApart false rest

end Piece

namespace Formula

open Piece (Alternate Fused FractionsApart isTight tightBehind)

def literal (value : Rat) : Formula :=
  .quantity (.ofNumber (.exact value))

/-- The first formula is the second one with quotients of two literals taken as fractions. -/
inductive Fuses : Formula → Formula → Prop where
  | quantity (value : Quantity) : Fuses (.quantity value) (.quantity value)
  | minus {fused operand : Formula} (part : Fuses fused operand) : Fuses (.minus fused) (.minus operand)
  | group {fused content : Formula} (part : Fuses fused content) : Fuses (.group fused) (.group content)
  | binary (operator : Operator) {fused left fusedRight right : Formula} (first : Fuses fused left)
      (second : Fuses fusedRight right) :
      Fuses (.binary operator fused fusedRight) (.binary operator left right)
  | fraction {n d : Rat} (nonzero : d ≠ 0) (signs : Nat) :
      Fuses (signed signs (literal (n / d))) (.binary .divide (signed signs (literal n)) (literal d))
  | product {n d : Rat} (nonzero : d ≠ 0) (signs : Nat) {fused left : Formula} (first : Fuses fused left) :
      Fuses (.binary .multiply fused (signed signs (literal (n / d))))
        (.binary .divide (.binary .multiply left (signed signs (literal n))) (literal d))

theorem Fuses.signed {fused operand : Formula} (fuses : Fuses fused operand) (signs : Nat) :
    Fuses (signed signs fused) (signed signs operand) := by
  induction signs with
  | zero => exact fuses
  | succ signs ih => exact .minus ih

/-! ### Sequences of operands -/

/-- Operands with the operator in front of each, where a fraction stands for a numerator and a denominator. -/
inductive FusesTail : Tail → Tail → Prop where
  | nil : FusesTail [] []
  | step (operator : Operator) {fused operand : Formula} {fusedTail tail : Tail} (first : Fuses fused operand)
      (later : FusesTail fusedTail tail) : FusesTail ((operator, fused) :: fusedTail) ((operator, operand) :: tail)
  | fraction {operator : Operator} (loose : isTight operator = false) {n d : Rat} (nonzero : d ≠ 0) (signs : Nat)
      {fusedTail tail : Tail} (noPower : Leads fusedTail (· ≠ .raise)) (later : FusesTail fusedTail tail) :
      FusesTail ((operator, signed signs (literal (n / d))) :: fusedTail)
        ((operator, signed signs (literal n)) :: (.divide, literal d) :: tail)

theorem FusesTail.leads {fusedTail tail : Tail} (fuses : FusesTail fusedTail tail) {holds : Operator → Prop}
    (leads : Leads fusedTail holds) : Leads tail holds := by
  intro step isHead
  cases fuses with
  | nil => cases isHead
  | @step operator fused _ _ _ _ _ =>
      rw [← Option.some.inj isHead]
      exact leads (operator, fused) rfl
  | @fraction operator _ n d _ signs _ _ _ _ =>
      rw [← Option.some.inj isHead]
      exact leads (operator, signed signs (literal (n / d))) rfl

private theorem leads_powersOfTail {tail : Tail} {holds : Operator → Prop} (leads : Leads tail holds) :
    Leads (powersOfTail tail) holds := by
  intro step isHead
  cases tail with
  | nil => cases isHead
  | cons first rest =>
      rw [← Option.some.inj isHead]
      exact leads first rfl

/-- What powers make of an operand and a tail is told by what they make of the tail. -/
theorem groupPowers_raise {first power : Formula} {tail rest : Tail}
    (isPower : powersOfTail tail = (.raise, power) :: rest) :
    groupPowers first tail = (.binary .raise first power, rest) := by
  cases tail with
  | nil => cases isPower
  | cons step others =>
      obtain ⟨operator, next⟩ := step
      obtain ⟨sameStep, rfl⟩ := List.cons.inj isPower
      obtain ⟨rfl, rfl⟩ := Prod.mk.inj sameStep
      rfl

private theorem leads_or_raise (tail : Tail) :
    Leads tail (· ≠ .raise) ∨ ∃ power rest, powersOfTail tail = (.raise, power) :: rest := by
  cases tail with
  | nil => exact Or.inl fun step isHead => by cases isHead
  | cons step rest =>
      obtain ⟨operator, next⟩ := step
      by_cases isRaise : operator = .raise
      · exact Or.inr ⟨_, _, by rw [isRaise]; rfl⟩
      · refine Or.inl fun first isHead => ?_
        rw [← Option.some.inj isHead]
        exact isRaise

theorem FusesTail.powers {fusedTail tail : Tail} (fuses : FusesTail fusedTail tail) :
    FusesTail (powersOfTail fusedTail) (powersOfTail tail) := by
  induction fuses with
  | nil => exact .nil
  | @step operator fused operand fusedTail tail first later ih =>
      rcases leads_or_raise fusedTail with noPower | ⟨power, rest, isPower⟩
      · simp only [powersOfTail, groupPowers_of_leads noPower, groupPowers_of_leads (later.leads noPower)]
        exact .step operator first ih
      · rw [isPower] at ih
        generalize isTail : powersOfTail tail = grouped at ih
        cases ih with
        | step _ second others =>
            simp only [powersOfTail, groupPowers_raise isPower, groupPowers_raise isTail]
            exact .step operator (.binary .raise first second) others
        | fraction loose _ _ _ _ => cases loose
  | @fraction operator loose n d nonzero signs fusedTail tail noPower later ih =>
      have noPowerToo : Leads tail (· ≠ .raise) := later.leads noPower
      have division : Leads ((Operator.divide, literal d) :: tail) (· ≠ .raise) := by
        intro step isHead
        rw [← Option.some.inj isHead]
        exact fun same => by cases same
      simp only [powersOfTail, groupPowers_of_leads noPower, groupPowers_of_leads division,
        groupPowers_of_leads noPowerToo]
      exact .fraction loose nonzero signs (leads_powersOfTail noPower) ih

abbrev FusesEach : Tail → Tail → Prop :=
  List.Forall₂ fun fused operand => fused.1 = operand.1 ∧ Fuses fused.2 operand.2

theorem FusesTail.products {fusedTail tail : Tail} (fuses : FusesTail fusedTail tail) {fused first : Formula}
    (fusesFirst : Fuses fused first) :
    Fuses (groupProducts fused fusedTail).1 (groupProducts first tail).1 ∧
      FusesEach (groupProducts fused fusedTail).2 (groupProducts first tail).2 := by
  induction fuses generalizing fused first with
  | nil => exact ⟨fusesFirst, .nil⟩
  | step operator next _ ih =>
      unfold groupProducts
      by_cases isProduct : operator.precedence = .product
      · simp only [if_pos isProduct]
        exact ih (.binary operator fusesFirst next)
      · obtain ⟨product, others⟩ := ih next
        simp only [if_neg isProduct]
        exact ⟨fusesFirst, .cons ⟨rfl, product⟩ others⟩
  | @fraction operator loose n d nonzero signs fusedTail tail _ _ ih =>
      cases operator with
      | multiply => exact ih (.product nonzero signs fusesFirst)
      | divide => cases loose
      | raise => cases loose
      | _ =>
          obtain ⟨product, others⟩ := ih (.fraction nonzero signs)
          exact ⟨fusesFirst, .cons ⟨rfl, product⟩ others⟩

private theorem fuses_joinFromLeft {fusedTail tail : Tail} (each : FusesEach fusedTail tail) {fused first : Formula}
    (fusesFirst : Fuses fused first) : Fuses (joinFromLeft fused fusedTail) (joinFromLeft first tail) := by
  induction each generalizing fused first with
  | nil => exact fusesFirst
  | @cons fusedStep step _ _ same _ ih =>
      obtain ⟨operator, next⟩ := fusedStep
      obtain ⟨rfl, fusesNext⟩ := same
      exact ih (.binary _ fusesFirst fusesNext)

/-- The formulas of two sequences.  The first operand counts as a term that is added. -/
theorem FusesTail.ofSequence {fused first : Formula} {fusedTail tail : Tail}
    (fuses : FusesTail ((.add, fused) :: fusedTail) ((.add, first) :: tail)) :
    Fuses (ofSequence fused fusedTail) (ofSequence first tail) := by
  have powers := fuses.powers
  simp only [powersOfTail] at powers
  unfold Formula.ofSequence
  generalize groupPowers fused fusedTail = fusedPowers at powers ⊢
  generalize groupPowers first tail = ownPowers at powers ⊢
  obtain ⟨fusedPower, fusedOthers⟩ := fusedPowers
  obtain ⟨power, others⟩ := ownPowers
  cases powers with
  | step _ fusesPower fusesOthers =>
      obtain ⟨product, each⟩ := fusesOthers.products fusesPower
      exact fuses_joinFromLeft each product
  | fraction _ nonzero signs _ fusesOthers =>
      obtain ⟨product, each⟩ := fusesOthers.products (.fraction nonzero signs)
      exact fuses_joinFromLeft each product

/-! ### What has been read of a group -/

def behind : List (Formula × Operator) → Operator
  | [] => .add
  | (_, operator) :: _ => operator

/-- Operands with the operator behind each, the last one first. -/
inductive FusesRead : List (Formula × Operator) → List (Formula × Operator) → Prop where
  | nil : FusesRead [] []
  | step (operator : Operator) {fused operand : Formula} {fusedRead read : List (Formula × Operator)}
      (last : Fuses fused operand) (earlier : FusesRead fusedRead read) :
      FusesRead ((fused, operator) :: fusedRead) ((operand, operator) :: read)
  | fraction {operator : Operator} (noPower : operator ≠ .raise) {n d : Rat} (nonzero : d ≠ 0) (signs : Nat)
      {fusedRead read : List (Formula × Operator)} (loose : isTight (behind fusedRead) = false)
      (earlier : FusesRead fusedRead read) :
      FusesRead ((signed signs (literal (n / d)), operator) :: fusedRead)
        ((literal d, operator) :: (signed signs (literal n), .divide) :: read)

/-- What has been read up to an operand, that operand included. -/
inductive FusesUpTo : List (Formula × Operator) → Formula → List (Formula × Operator) → Formula → Prop where
  | operand {fused last : Formula} {fusedRead read : List (Formula × Operator)} (fuses : Fuses fused last)
      (earlier : FusesRead fusedRead read) : FusesUpTo fusedRead fused read last
  | fraction {n d : Rat} (nonzero : d ≠ 0) (signs : Nat) {fusedRead read : List (Formula × Operator)}
      (loose : isTight (behind fusedRead) = false) (earlier : FusesRead fusedRead read) :
      FusesUpTo fusedRead (signed signs (literal (n / d))) ((signed signs (literal n), .divide) :: read) (literal d)

theorem FusesRead.unread {fusedRead read : List (Formula × Operator)} (fuses : FusesRead fusedRead read)
    {fused last : Formula} {fusedTail tail : Tail}
    (fusesTail : FusesTail ((behind fusedRead, fused) :: fusedTail) ((behind fusedRead, last) :: tail)) :
    FusesTail ((.add, (unread fused fusedTail fusedRead).1) :: (unread fused fusedTail fusedRead).2)
      ((.add, (unread last tail read).1) :: (unread last tail read).2) := by
  induction fuses generalizing fused last fusedTail tail with
  | nil => exact fusesTail
  | step operator fusesLast _ ih => exact ih (.step _ fusesLast fusesTail)
  | @fraction operator noPower n d nonzero signs _ _ loose _ ih =>
      have leads : Leads ((operator, fused) :: fusedTail) (· ≠ .raise) := by
        intro step isHead
        rw [← Option.some.inj isHead]
        exact noPower
      exact ih (.fraction loose nonzero signs leads fusesTail)

theorem FusesUpTo.close {fusedRead read : List (Formula × Operator)} {fused last : Formula}
    (fuses : FusesUpTo fusedRead fused read last) : Fuses (close fusedRead fused) (close read last) := by
  cases fuses with
  | operand fusesLast earlier => exact (earlier.unread (.step _ fusesLast .nil)).ofSequence
  | fraction nonzero signs loose earlier =>
      have nothing : Leads ([] : Tail) (· ≠ .raise) := fun step isHead => by cases isHead
      exact (earlier.unread (.fraction loose nonzero signs nothing .nil)).ofSequence

theorem FusesUpTo.push {fusedRead read : List (Formula × Operator)} {fused last : Formula}
    (fuses : FusesUpTo fusedRead fused read last) {operator : Operator} (noPower : operator ≠ .raise) :
    FusesRead ((fused, operator) :: fusedRead) ((last, operator) :: read) := by
  cases fuses with
  | operand fusesLast earlier => exact .step operator fusesLast earlier
  | fraction nonzero signs loose earlier => exact .fraction noPower nonzero signs loose earlier

abbrev FusesOpen : List Partial → List Partial → Prop :=
  List.Forall₂ fun fused own => fused.signs = own.signs ∧ FusesRead fused.read own.read

/-- The operator behind an operand can be a power only if the operand is no fraction. -/
def ReadyFor (lexemes : List Fused) (fusedRead : List (Formula × Operator)) (fused : Formula)
    (read : List (Formula × Operator)) (last : Formula) : Prop :=
  lexemes.head? = some (.piece (.operator .raise)) → FusesRead fusedRead read ∧ Fuses fused last

theorem FusesUpTo.next {fusedRead read : List (Formula × Operator)} {fused last : Formula}
    (fuses : FusesUpTo fusedRead fused read last) {operator : Operator} {rest : List Fused}
    (ready : ReadyFor (.piece (.operator operator) :: rest) fusedRead fused read last) :
    FusesRead ((fused, operator) :: fusedRead) ((last, operator) :: read) := by
  by_cases isPower : operator = .raise
  · obtain ⟨earlier, fusesLast⟩ := ready (by rw [isPower]; rfl)
    exact .step operator fusesLast earlier
  · exact fuses.push isPower

private theorem isTight_behind (fused : Formula) (operator : Operator) (read : List (Formula × Operator)) :
    isTight (behind ((fused, operator) :: read)) = (Piece.operator operator).tightBehind false := by
  cases operator <;> rfl

/-- What is read with and without blanks differs in its fractions only.  The induction is on the lexemes, in front
of an operand as well as behind one; what has been read of the open groups carries it. -/
theorem fuses_of_read {lexemes : List Fused} (sound : ∀ lexeme, lexeme ∈ lexemes → lexeme.IsLexeme) :
    (∀ fusedOpen enclosing fusedHere here contracted formula, FusesOpen fusedOpen enclosing →
      fusedHere.signs = here.signs → FusesRead fusedHere.read here.read →
        FractionsApart (isTight (behind fusedHere.read)) lexemes →
          readOperand fusedOpen fusedHere (lexemes.map Fused.token) = .ok contracted →
            readOperand enclosing here ((lexemes.flatMap Fused.pieces).map Piece.token) = .ok formula →
              Fuses contracted formula) ∧
    (∀ fusedOpen enclosing fusedRead fused read last contracted formula, FusesOpen fusedOpen enclosing →
      FusesUpTo fusedRead fused read last → ReadyFor lexemes fusedRead fused read last →
        FractionsApart false lexemes →
          readOperator fusedOpen fusedRead fused (lexemes.map Fused.token) = .ok contracted →
            readOperator enclosing read last ((lexemes.flatMap Fused.pieces).map Piece.token) = .ok formula →
              Fuses contracted formula) := by
  induction lexemes with
  | nil =>
      constructor
      · intro fusedOpen enclosing fusedHere here contracted formula _ _ _ _ fusedAccepted
        cases fusedAccepted
      · intro fusedOpen enclosing fusedRead fused read last contracted formula openGroups upTo _ _ fusedAccepted
          accepted
        cases openGroups with
        | nil =>
            rw [← Except.ok.inj fusedAccepted, ← Except.ok.inj accepted]
            exact upTo.close
        | cons _ _ => cases accepted
  | cons lexeme rest ih =>
      obtain ⟨ihOperand, ihOperator⟩ := ih fun later member => sound later (List.mem_cons_of_mem _ member)
      constructor
      · intro fusedOpen enclosing fusedHere here contracted formula openGroups signs readSoFar apart fusedAccepted
          accepted
        cases lexeme with
        | fraction n d =>
            obtain ⟨loose, noPower, apartLater⟩ := apart
            have nonzero : (d.value : Rat) ≠ 0 := Nat.cast_ne_zero.mpr (sound _ List.mem_cons_self)
            have upTo : FusesUpTo fusedHere.read (signed fusedHere.signs (literal ((n.value : Rat) / (d.value : Rat))))
                ((signed fusedHere.signs (literal n.value), .divide) :: here.read) (literal d.value) :=
              .fraction nonzero fusedHere.signs loose readSoFar
            refine ihOperator fusedOpen enclosing _ _ _ _ contracted formula openGroups upTo
              (fun isPower => absurd isPower noPower) apartLater fusedAccepted ?_
            rw [signs]
            exact accepted
        | piece single =>
            cases single with
            | numeral number =>
                have fusesLast := (Fuses.quantity (.ofNumber (.exact number.value))).signed here.signs
                refine ihOperator fusedOpen enclosing _ _ _ _ contracted formula openGroups
                  (.operand fusesLast readSoFar) (fun _ => ⟨readSoFar, fusesLast⟩) apart ?_ accepted
                rw [← signs]
                exact fusedAccepted
            | operator operator =>
                cases operator with
                | subtract =>
                    exact ihOperand fusedOpen enclosing { fusedHere with signs := fusedHere.signs + 1 }
                      { here with signs := here.signs + 1 } contracted formula openGroups
                      (congrArg Nat.succ signs) readSoFar apart fusedAccepted accepted
                | _ => cases accepted
            | leftParen =>
                exact ihOperand (fusedHere :: fusedOpen) (here :: enclosing) Partial.start Partial.start contracted
                  formula (.cons ⟨signs, readSoFar⟩ openGroups) rfl .nil apart fusedAccepted accepted
            | rightParen => cases accepted
      · intro fusedOpen enclosing fusedRead fused read last contracted formula openGroups upTo ready apart
          fusedAccepted accepted
        cases lexeme with
        | fraction n d => cases accepted
        | piece single =>
            cases single with
            | numeral number => cases accepted
            | operator operator =>
                refine ihOperand fusedOpen enclosing { read := (fused, operator) :: fusedRead, signs := 0 }
                  { read := (last, operator) :: read, signs := 0 } contracted formula openGroups rfl
                  (upTo.next ready) ?_ fusedAccepted accepted
                rw [isTight_behind]
                exact apart
            | leftParen => cases accepted
            | rightParen =>
                cases openGroups with
                | nil => cases accepted
                | @cons fusedOuter outer fusedOthers others same othersOpen =>
                    obtain ⟨signs, outerRead⟩ := same
                    have fusesLast := (Fuses.group upTo.close).signed outer.signs
                    refine ihOperator fusedOthers others _ _ _ _ contracted formula othersOpen
                      (.operand fusesLast outerRead) (fun _ => ⟨outerRead, fusesLast⟩) apart ?_ accepted
                    rw [← signs]
                    exact fusedAccepted

/-- Formulas that are read with and without blanks differ in their fractions only. -/
theorem fuses_of_ofTokens {pieces : List Piece} {fused formula : Formula}
    (sound : ∀ lexeme, lexeme ∈ Piece.fuse pieces → lexeme.IsLexeme)
    (apart : FractionsApart false (Piece.fuse pieces))
    (fusedAccepted : ofTokens ((Piece.fuse pieces).map Fused.token) = .ok fused)
    (accepted : ofTokens (pieces.map Piece.token) = .ok formula) : Fuses fused formula := by
  rw [← Piece.flatMap_fuse pieces] at accepted
  exact (fuses_of_read sound).1 [] [] Partial.start Partial.start fused formula .nil rfl .nil apart fusedAccepted
    accepted

/-! ### Accepted pieces alternate -/

private theorem alternate_of_read (pieces : List Piece) :
    (∀ enclosing here formula, readOperand enclosing here (pieces.map Piece.token) = .ok formula →
      Alternate .before pieces) ∧
    (∀ enclosing read last formula, readOperator enclosing read last (pieces.map Piece.token) = .ok formula →
      Alternate .behind pieces) := by
  induction pieces with
  | nil => exact ⟨fun _ _ _ _ => .finish _, fun _ _ _ _ _ => .finish _⟩
  | cons piece rest ih =>
      obtain ⟨ihOperand, ihOperator⟩ := ih
      constructor
      · intro enclosing here formula accepted
        cases piece with
        | numeral number => exact .numeral number (ihOperator _ _ _ _ accepted)
        | operator operator =>
            cases operator with
            | subtract => exact .sign (ihOperand _ _ _ accepted)
            | _ => cases accepted
        | leftParen => exact .leftParen (ihOperand _ _ _ accepted)
        | rightParen => cases accepted
      · intro enclosing read last formula accepted
        cases piece with
        | numeral number => cases accepted
        | operator operator => exact .operator operator (ihOperand _ _ _ accepted)
        | leftParen => cases accepted
        | rightParen =>
            cases enclosing with
            | nil => cases accepted
            | cons outer others => exact .rightParen (ihOperator _ _ _ _ accepted)

theorem alternate_of_ofTokens {pieces : List Piece} {formula : Formula}
    (accepted : ofTokens (pieces.map Piece.token) = .ok formula) : Alternate .before pieces :=
  (alternate_of_read pieces).1 _ _ _ accepted

end Formula

end QuantityCalculator
