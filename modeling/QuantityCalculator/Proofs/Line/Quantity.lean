import QuantityCalculator.Proofs.Line.RoundTrip
import QuantityCalculator.Proofs.Quantity.Display
import QuantityCalculator.Proofs.Token.Unit

/-!
Quantities read back from their text.

The number and the unit that an exact quantity is shown with make the quantity again, whatever prefix is chosen.
A line that consists of them is read as the quantity, unless the unit starts like a lexeme of its own.
-/

namespace QuantityCalculator

open QuantityCalculator.Measure (Term Spells Presents halfText halfText_one)

/-! ### Signs and numbers -/

namespace Token

def signOf (number : Rat) : List Token :=
  if 0 ≤ number then [] else [.operator .subtract]

/-- A number is scanned as its sign, and then as the literal of its absolute value. -/
theorem scan_ratioText {number : Rat} {text : String} {rest : List Char}
    (isText : text.toList = (Scientific.ratioText number).toList ++ rest)
    (plain : ∀ c, c ∈ rest → c ≠ '\\' ∧ c ≠ Text.microSign) (results : Nat) :
    scan results text = (scanWithin results ((Scientific.ratioText |number|).toList ++ rest).length
      ((Scientific.ratioText |number|).toList ++ rest)).map (signOf number ++ ·) := by
  have literal := isLiteral_ratioText (abs_nonneg number)
  have noEscape : ∀ c, c ∈ (Scientific.ratioText |number|).toList ++ rest → c ≠ '\\' ∧ c ≠ Text.microSign :=
    fun c member => (List.mem_append.mp member).elim (literal.noEscape c) (plain c)
  by_cases nonnegative : 0 ≤ number
  · rw [abs_of_nonneg nonnegative] at noEscape ⊢
    rw [scan, isText, resolveEscapes_of_noEscape noEscape, signOf, if_pos nonnegative]
    change scanWithin _ _ _ = _
    cases scanWithin results _ ((Scientific.ratioText number).toList ++ rest) <;> rfl
  · rw [abs_of_neg (not_le.mp nonnegative)] at literal noEscape ⊢
    obtain ⟨c, later, isDigits, digit⟩ := literal.starts
    have noArrow := (plain_of_isSubscript (isSubscript_of_isDigit digit)).1
    have sign : scanOne results ('-' :: ((Scientific.ratioText (-number)).toList ++ rest)) =
        .ok (.operator .subtract, (Scientific.ratioText (-number)).toList ++ rest) := by
      refine scanOne_minus (fun isArrow => noArrow ?_) results
      rw [isDigits] at isArrow
      exact Option.some.inj isArrow
    rw [scan, isText, Expression.ratioText_of_neg (not_le.mp nonnegative), List.cons_append,
      resolveEscapes_of_noEscape (List.forall_mem_cons.mpr ⟨by decide, noEscape⟩), signOf, if_neg nonnegative]
    exact scanWithin_succ ⟨'-', _, rfl, by decide⟩ sign _

end Token

namespace Line

variable {workspace : Workspace}

/-- A line that goes on behind an operand with something else than an operator is at most the operand in a unit. -/
theorem expression_of_isApart {number : Rat} {value : Quantity} {second : Token} {rest : List Token} {line : Line}
    (apart : second.IsApart)
    (accepted : ofTokens workspace (Token.signOf number ++ .quantity value :: second :: rest) = .ok line) :
    line.expression = .quantity value ∨ line.expression = .quantity (-value) := by
  unfold Token.signOf at accepted
  rw [ofTokens_eq] at accepted
  -- a display unit has to be the last lexeme, and a second number has no operator in front of it
  cases second with
  | displayUnit unit =>
      cases rest with
      | nil =>
          split at accepted
          · cases accepted
            exact Or.inl rfl
          · cases accepted
            exact Or.inr rfl
      | cons next later => split at accepted <;> cases accepted
  | quantity other =>
      cases later : splitDisplayUnit rest with
      | error cause =>
          split at accepted <;>
            simp only [List.nil_append, List.cons_append, splitDisplayUnit, later, Except.map, bind,
              Except.bind] at accepted <;> cases accepted
      | ok found =>
          obtain ⟨tokens, unit⟩ := found
          split at accepted <;>
            simp only [List.nil_append, List.cons_append, splitDisplayUnit, later, Except.map, bind,
              Except.bind] at accepted <;> cases accepted
  | _ => exact apart.elim

/-- A number with a sign is read as what it stands for with the unit behind it. -/
theorem exists_formula_signOf (number factor : Rat) (dimension : Dimension) :
    ∃ formula, Formula.Derives .sum
        (Token.signOf number ++ [.quantity { magnitude := .exact (|number| * factor), dimension }]) formula ∧
      formula.normalize = .quantity { magnitude := .exact (number * factor), dimension } := by
  have derived : Formula.Derives .operand [.quantity { magnitude := .exact (|number| * factor), dimension }]
      (.quantity _) := .quantity _
  unfold Token.signOf
  split
  · rename_i nonnegative
    refine ⟨_, .sum (.product (.power derived)), ?_⟩
    rw [Formula.normalize, abs_of_nonneg nonnegative]
  · rename_i negative
    refine ⟨_, .sum (.product (.power (.minus derived))), ?_⟩
    have back : -(|number| * factor) = number * factor := by
      rw [abs_of_neg (not_le.mp negative)]
      ring
    rw [Formula.normalize, Formula.normalize, ← back]
    rfl

section WithUnit

variable {number factor : Rat} {dimension : Dimension} {numerator denominator : List Term} {unit : List Char}
  {text : String}

/-- A number and its unit are read together if the unit does not start like a lexeme of its own. -/
theorem read_of_followsNumber (isText : text.toList = (Scientific.ratioText number).toList ++ ' ' :: unit)
    (presents : Presents dimension factor numerator denominator unit) (notOne : dimension ≠ .one)
    (follows : Token.FollowsNumber unit) :
    read workspace text = .ok
      { targets := []
        expression := .quantity { magnitude := .exact (number * factor), dimension }
        displayUnit := none } := by
  have plain : ∀ c, c ∈ ' ' :: unit → c ≠ '\\' ∧ c ≠ Text.microSign :=
    List.forall_mem_cons.mpr ⟨by decide, Token.noEscape_of_presents presents⟩
  have literal := Token.isLiteral_ratioText (abs_nonneg number)
  have first := (Token.scanOne_of_isLiteral literal workspace.outputs.length _).trans
    (Token.scanLiteral_unit literal presents notOne follows)
  obtain ⟨c, later, isDigits, digit⟩ := literal.starts
  have noBlank := (Token.plain_of_isSubscript (Token.isSubscript_of_isDigit digit)).2.1
  obtain ⟨count, isLength⟩ : ∃ count,
      ((Scientific.ratioText |number|).toList ++ ' ' :: unit).length = count + 1 :=
    ⟨_, by rw [isDigits]; rfl⟩
  have nothing : Token.scanWithin workspace.outputs.length count [] = .ok [] := by
    cases count <;> rfl
  have scanned := Token.scan_ratioText isText plain workspace.outputs.length
  rw [isLength, Token.scanWithin_succ ⟨c, later ++ ' ' :: unit, by rw [isDigits, List.cons_append], noBlank⟩ first,
    nothing] at scanned
  obtain ⟨formula, derived, isNormal⟩ := exists_formula_signOf number factor dimension
  rw [read_of_derives scanned derived, isNormal]

private theorem dimension_of_not_followsNumber
    (isText : text.toList = (Scientific.ratioText number).toList ++ ' ' :: unit)
    (presents : Presents dimension factor numerator denominator unit) (notOne : dimension ≠ .one)
    (apart : ¬Token.FollowsNumber unit) {line : Line} (accepted : read workspace text = .ok line)
    {value : Quantity} (isQuantity : line.expression = .quantity value) : value.dimension = .one := by
  have plain : ∀ c, c ∈ ' ' :: unit → c ≠ '\\' ∧ c ≠ Text.microSign :=
    List.forall_mem_cons.mpr ⟨by decide, Token.noEscape_of_presents presents⟩
  have literal := Token.isLiteral_ratioText (abs_nonneg number)
  obtain ⟨c, later, isDigits, _⟩ := literal.starts
  obtain ⟨count, isLength⟩ : ∃ count,
      ((Scientific.ratioText |number|).toList ++ ' ' :: unit).length = count + 2 :=
    ⟨later.length + unit.length, by
      rw [isDigits, List.length_append, List.length_cons, List.length_cons]
      omega⟩
  obtain ⟨tokens, scanned, isLine⟩ := exists_scan accepted
  have within := Token.scan_ratioText isText plain workspace.outputs.length
  rw [scanned, isLength] at within
  obtain ⟨lexemes, found, rfl⟩ := map_eq_ok_iff.mp within.symm
  obtain ⟨second, rest, rfl, isApart⟩ := Token.exists_apart literal presents notOne apart found
  rcases expression_of_isApart isApart isLine with same | negated
  · rw [isQuantity] at same
    rw [Expression.quantity.inj same]
    rfl
  · rw [isQuantity] at negated
    rw [Expression.quantity.inj negated]
    rfl

end WithUnit

/-- What an exact quantity is shown as is read as the quantity, unless the unit starts like a lexeme of its own; then
no line with the quantity is read. -/
theorem read_quantityText {quantity : Quantity} {r : Rat} (exact : quantity.magnitude = .exact r)
    (small : ∀ base, (quantity.dimension.exponent base).natAbs ≤ 4096) :
    (Token.FollowsNumber quantity.shownUnit.toList → read workspace (quantity.text true) =
        .ok { targets := [], expression := .quantity quantity, displayUnit := none }) ∧
      (¬Token.FollowsNumber quantity.shownUnit.toList → ∀ line, read workspace (quantity.text true) = .ok line →
        line.expression ≠ .quantity quantity) := by
  have isQuantity : { magnitude := .exact r, dimension := quantity.dimension } = quantity := by
    rw [← exact]
  by_cases isOne : quantity.dimension = .one
  · rw [isOne] at isQuantity
    subst isQuantity
    have noUnit : Quantity.shownUnit (.ofNumber (.exact r)) = "" := rfl
    have written : Expression.text true (.quantity (.ofNumber (.exact r))) =
        Quantity.text (.ofNumber (.exact r)) true := rfl
    have normal : Expression.Normal workspace.outputs.length (.quantity (.ofNumber (.exact r))) :=
      ⟨.quantity _ ⟨r, rfl⟩, .quantity _⟩
    have isRead := read_text normal
    rw [written] at isRead
    change (Token.FollowsNumber (Quantity.shownUnit (.ofNumber (.exact r))).toList → _) ∧
      (¬Token.FollowsNumber (Quantity.shownUnit (.ofNumber (.exact r))).toList → _)
    rw [noUnit]
    exact ⟨fun _ => isRead, fun apart => absurd (by decide) apart⟩
  · obtain ⟨number, factor, numerator, denominator, shown, presents, isProduct⟩ :=
      Quantity.exists_shown exact small isOne
    generalize Quantity.shownUnit _ = unit at shown presents ⊢
    generalize Quantity.text _ true = text at shown ⊢
    have nonempty : unit ≠ "" := by
      rintro rfl
      exact presents.text_ne_nil isOne rfl
    have isText : text.toList = (Scientific.ratioText number).toList ++ ' ' :: unit.toList := by
      rw [shown, withUnit, if_neg nonempty, String.toList_append, String.toList_append, List.append_assoc]
      rfl
    rw [← isProduct] at isQuantity
    rw [← isQuantity]
    refine ⟨read_of_followsNumber isText presents isOne, fun apart line accepted same => ?_⟩
    have noUnit := dimension_of_not_followsNumber isText presents isOne apart accepted same
    exact isOne noUnit

def perMeter : Quantity :=
  { magnitude := .exact 5, dimension := .ofBases [] [.length] }

def kilogramMeters : Quantity :=
  { magnitude := .exact (-5 / 2), dimension := .ofBases [.mass, .length] [] }

private theorem shown_perMeter : perMeter.shownUnit = "1 / m" ∧ perMeter.text true = "5 1 / m" := by
  have name : perMeter.dimension.unitName =
      { text := "1 / m", prefixPower := 0, barred := Prefix.symbols } := by decide +kernel
  obtain ⟨unit, text⟩ := Quantity.shown_of_barred perMeter (by decide) (by decide) (by rw [name]; decide)
  rw [unit, text, name]
  exact ⟨rfl, by decide +kernel⟩

private theorem shown_kilogramMeters :
    kilogramMeters.shownUnit = "kg m" ∧ kilogramMeters.text true = "-5/2 kg m" := by
  have name : kilogramMeters.dimension.unitName =
      { text := "kg m", prefixPower := 1, barred := Prefix.symbols } := by decide +kernel
  obtain ⟨unit, text⟩ := Quantity.shown_of_barred kilogramMeters (by decide) (by decide)
    (by rw [name]; decide)
  rw [unit, text, name]
  exact ⟨rfl, by decide +kernel⟩

private theorem exponents_small : (∀ base, (perMeter.dimension.exponent base).natAbs ≤ 4096) ∧
    ∀ base, (kilogramMeters.dimension.exponent base).natAbs ≤ 4096 := by
  constructor <;> intro base <;> cases base <;> decide

theorem read_quantityText_kilogramMeters :
    kilogramMeters.text true = "-5/2 kg m" ∧ perMeter.text true = "5 1 / m" ∧
      read Workspace.empty (kilogramMeters.text true) =
        .ok { targets := [], expression := .quantity kilogramMeters, displayUnit := none } ∧
      ∀ line, read Workspace.empty (perMeter.text true) = .ok line → line.expression ≠ .quantity perMeter := by
  have magnitude : kilogramMeters.magnitude = .exact (-5 / 2) := rfl
  have inverseMagnitude : perMeter.magnitude = .exact 5 := rfl
  have follows : Token.FollowsNumber kilogramMeters.shownUnit.toList := by
    rw [shown_kilogramMeters.1]
    decide
  have apart : ¬Token.FollowsNumber perMeter.shownUnit.toList := by
    rw [shown_perMeter.1]
    decide
  exact ⟨shown_kilogramMeters.2, shown_perMeter.2, (read_quantityText magnitude exponents_small.2).1 follows,
    (read_quantityText inverseMagnitude exponents_small.1).2 apart⟩

/-- Five per meter is shown as `5 1 / m`, which no line is read from: a second number follows the first one. -/
theorem perMeter_not_read :
    perMeter.text true = "5 1 / m" ∧
      ¬∀ (workspace : Workspace) (quantity : Quantity) (r : Rat), quantity.magnitude = .exact r →
        (∀ base, (quantity.dimension.exponent base).natAbs ≤ 4096) →
          ∃ line, read workspace (quantity.text true) = .ok line ∧ line.expression = .quantity quantity := by
  refine ⟨shown_perMeter.2, fun reads => ?_⟩
  obtain ⟨line, accepted, _⟩ := reads Workspace.empty perMeter 5 rfl exponents_small.1
  rw [shown_perMeter.2] at accepted
  obtain ⟨cause, rejected⟩ : ∃ cause, read Workspace.empty "5 1 / m" = .error cause := ⟨_, rfl⟩
  rw [rejected] at accepted
  cases accepted

end Line

end QuantityCalculator
