import QuantityCalculator.Proofs.UnitName
import QuantityCalculator.Quantity.Display

/-!
Texts of quantities.

The number and the unit that an exact quantity is shown with make the quantity again, whatever prefix is chosen.  So
does a number in front of the text of a given unit, whatever its text is.
-/

namespace QuantityCalculator

open QuantityCalculator.Measure (Term Spells Presents halfText halfText_one)

def UnitName.Takes (name : UnitName) (candidate : Prefix) : Prop :=
  candidate = Prefix.empty ∨ candidate ∈ Prefix.all ∧ name.allows candidate.symbol = true

namespace Quantity

/-! ### Grams -/

private theorem gram_read (candidate : Prefix) (fits : candidate = Prefix.empty ∨ candidate ∈ Prefix.all) :
    Measure.ofName (candidate.symbol ++ gramName.text).toList =
      .ok { dimension := .ofBase .mass, factor := .exact ((10 : Rat) ^ candidate.exponent / 1000) } := by
  have each : ((Prefix.empty :: Prefix.all).all fun candidate =>
      Measure.isMultiple (Measure.ofName (candidate.symbol ++ gramName.text).toList) (.ofBase .mass)
        ((10 : Rat) ^ candidate.exponent / 1000)) = true := by
    decide +kernel
  exact Measure.eq_ok_of_isMultiple (List.all_eq_true.mp each candidate (List.mem_cons.mpr fits))

private theorem gram_moderate : (1 : Int).natAbs ≤ 4096 := by
  decide

def gram (candidate : Prefix) (fits : candidate = Prefix.empty ∨ candidate ∈ Prefix.all) : Term where
  name := (candidate.symbol ++ gramName.text).toList
  power := 1
  dimension := .ofBase .mass
  factor := (10 : Rat) ^ candidate.exponent / 1000
  nonempty := by
    rw [String.toList_append]
    exact List.append_ne_nil_of_right_ne_nil _ (List.cons_ne_nil _ _)
  plain := by
    intro c member
    have each : ((Prefix.empty :: Prefix.all).all fun candidate =>
        (candidate.symbol ++ gramName.text).toList.all Text.isNamePart) = true := by
      decide +kernel
    exact List.all_eq_true.mp (List.all_eq_true.mp each candidate (List.mem_cons.mpr fits)) c member
  named := gram_read candidate fits
  nonzero := div_ne_zero (zpow_ne_zero _ (by decide)) (by decide)
  moderate := gram_moderate
  small base := by
    rw [Dimension.ofBase, Dimension.exponent_ofExponents]
    split <;> decide

private theorem gram_presents {candidate : Prefix} (fits : candidate = Prefix.empty ∨ candidate ∈ Prefix.all) :
    ∃ numerator denominator, Presents (.ofBase .mass) ((10 : Rat) ^ candidate.exponent / 1000) numerator denominator
      (candidate.symbol ++ gramName.text).toList := by
  have text : (candidate.symbol ++ gramName.text).toList = halfText [gram candidate fits] := by
    have noPower : (Text.raisedPower 1).toList = [] := rfl
    rw [halfText_one]
    change _ = _ ++ (Text.raisedPower 1).toList
    rw [noPower, List.append_nil]
    rfl
  refine ⟨[gram candidate fits], [], text ▸ Spells.whole _, Nat.le_of_ble_eq_true rfl, Nat.zero_le _, ?_, ?_, ?_,
    List.forall_mem_nil _⟩
  · simp [gram]
  · simp [gram]
  · refine List.forall_mem_singleton.mpr fun c member => ?_
    have each : ((Prefix.empty :: Prefix.all).all fun candidate =>
        (candidate.symbol ++ gramName.text).toList.all Token.isLetter) = true := by
      decide +kernel
    exact List.all_eq_true.mp (List.all_eq_true.mp each candidate (List.mem_cons.mpr fits)) c member

/-! ### Shifted numbers -/

private theorem shifted_exact (r : Rat) (shift : Int) :
    shifted (.exact r) shift = .exact (r * (10 : Rat) ^ (-shift)) := by
  unfold shifted
  split
  · rename_i noShift
    rw [noShift, neg_zero, zpow_zero, mul_one]
  · rfl

private theorem shift_back (r : Rat) (shift : Int) : r * (10 : Rat) ^ (-shift) * (10 : Rat) ^ shift = r := by
  rw [mul_assoc, ← zpow_add₀ (by decide), neg_add_cancel, zpow_zero, mul_one]

/-! ### What is shown -/

def shownUnit (quantity : Quantity) : String :=
  if quantity.dimension.isOne then ""
  else
    let (number, name) := quantity.named
    (name.prefixFor number).symbol ++ name.text

def numberBehind (quantity : Quantity) (candidate : Prefix) : Number :=
  shifted quantity.named.1 (candidate.exponent * quantity.named.2.prefixPower)

/-- Whatever prefix the name takes, the number in front of it makes the magnitude again with the unit. -/
theorem exists_presents {quantity : Quantity} {r : Rat} (exact : quantity.magnitude = .exact r)
    (small : ∀ base, (quantity.dimension.exponent base).natAbs ≤ 4096) {candidate : Prefix}
    (takes : quantity.named.2.Takes candidate) :
    ∃ number factor numerator denominator, quantity.numberBehind candidate = .exact number ∧
      Presents quantity.dimension factor numerator denominator (candidate.symbol ++ quantity.named.2.text).toList ∧
      number * factor = r := by
  -- a mass is shown in grams, so that the kilogram gets no second prefix
  by_cases isMass : quantity.dimension = .ofBase .mass
  · have named : quantity.named = (.exact (r * 1000), gramName) := by
      rw [Quantity.named, if_pos isMass, exact]
      rfl
    rw [numberBehind, named]
    obtain ⟨numerator, denominator, presents⟩ := gram_presents (takes.imp_right And.left)
    rw [← isMass] at presents
    refine ⟨_, _, numerator, denominator, shifted_exact _ _, presents, ?_⟩
    have back := shift_back (r * 1000) candidate.exponent
    change r * 1000 * (10 : Rat) ^ (-(candidate.exponent * 1)) * _ = r
    rw [mul_one, ← mul_div_assoc, back, mul_div_assoc, div_self (by decide), mul_one]
  · have named : quantity.named = (.exact r, quantity.dimension.unitName) := by
      rw [Quantity.named, if_neg isMass, exact]
    rw [named] at takes
    dsimp only at takes
    rw [numberBehind, named]
    obtain ⟨numerator, denominator, presents⟩ := Dimension.unitName_spelled small candidate takes
    refine ⟨_, _, numerator, denominator, shifted_exact _ _, presents, ?_⟩
    exact shift_back r (candidate.exponent * quantity.dimension.unitName.prefixPower)

/-- The number that is shown makes the magnitude again with the unit that is shown. -/
theorem exists_shown {quantity : Quantity} {r : Rat} (exact : quantity.magnitude = .exact r)
    (small : ∀ base, (quantity.dimension.exponent base).natAbs ≤ 4096) (notOne : quantity.dimension ≠ .one) :
    ∃ number factor numerator denominator,
      quantity.text true = withUnit (Scientific.ratioText number) quantity.shownUnit ∧
      Presents quantity.dimension factor numerator denominator quantity.shownUnit.toList ∧ number * factor = r := by
  have isOne : quantity.dimension.isOne = false := decide_eq_false notOne
  have takes : quantity.named.2.Takes (quantity.named.2.prefixFor quantity.named.1) :=
    quantity.named.2.prefixFor_allowed quantity.named.1
  obtain ⟨number, factor, numerator, denominator, behind, presents, isProduct⟩ := exists_presents exact small takes
  have unit : quantity.shownUnit =
      (quantity.named.2.prefixFor quantity.named.1).symbol ++ quantity.named.2.text := by
    simp only [shownUnit, isOne, Bool.false_eq_true, if_false]
  refine ⟨number, factor, numerator, denominator, ?_, unit ▸ presents, isProduct⟩
  rw [unit]
  unfold numberBehind at behind
  simp only [text, isOne, Bool.false_eq_true, if_false, behind]
  rfl

theorem shown_of_barred (quantity : Quantity) (notOne : quantity.dimension ≠ .one)
    (notMass : quantity.dimension ≠ .ofBase .mass)
    (barred : ∀ candidate, candidate ∈ Prefix.all → quantity.dimension.unitName.allows candidate.symbol = false) :
    quantity.shownUnit = quantity.dimension.unitName.text ∧
      quantity.text true = withUnit (quantity.magnitude.text true) quantity.dimension.unitName.text := by
  have isOne : quantity.dimension.isOne = false := decide_eq_false notOne
  have named : quantity.named = (quantity.magnitude, quantity.dimension.unitName) := by
    rw [Quantity.named, if_neg notMass]
  have noPrefix : quantity.dimension.unitName.prefixFor quantity.magnitude = Prefix.empty := by
    rcases quantity.dimension.unitName.prefixFor_allowed quantity.magnitude with isEmpty | ⟨member, allows⟩
    · exact isEmpty
    · rw [barred _ member] at allows
      cases allows
  have noShift : shifted quantity.magnitude (Prefix.empty.exponent * quantity.dimension.unitName.prefixPower) =
      quantity.magnitude := if_pos (Int.zero_mul _)
  have noSymbol : Prefix.empty.symbol ++ quantity.dimension.unitName.text = quantity.dimension.unitName.text :=
    String.empty_append
  simp only [shownUnit, text, isOne, Bool.false_eq_true, if_false, named, noPrefix, noShift, noSymbol, and_self]

/-! ### What a text denotes -/

/-- A number and a unit with a blank between them.  The unit is read as a multiple of the coherent unit of a
dimension, and the number makes a magnitude with it. -/
def Denotes (text : String) (dimension : Dimension) (r : Rat) : Prop :=
  ∃ number unit factor, unit ≠ "" ∧ text = (Number.exact number).text true ++ " " ++ unit ∧
    Measure.read unit.toList = .ok { dimension, factor := .exact factor } ∧ number * factor = r

private theorem denotes_of_presents {number factor r : Rat} {dimension : Dimension} {numerator denominator : List Term}
    {unit : String} (presents : Presents dimension factor numerator denominator unit.toList)
    (notOne : dimension ≠ .one) (isProduct : number * factor = r) :
    Denotes (withUnit ((Number.exact number).text true) unit) dimension r := by
  have nonempty : unit ≠ "" := by
    rintro rfl
    exact presents.text_ne_nil notOne rfl
  refine ⟨number, unit, factor, nonempty, ?_, presents.read, isProduct⟩
  rw [withUnit, if_neg nonempty]

/-- In a unit of its dimension, an exact quantity is shown with the number that makes it again. -/
theorem textIn_some {quantity : Quantity} {r factor : Rat} {unit : DisplayUnit}
    (exact : quantity.magnitude = .exact r) (isFactor : unit.measure.factor = .exact factor) (nonzero : factor ≠ 0)
    (same : unit.measure.dimension = quantity.dimension) (fractions : Bool) :
    quantity.textIn fractions (some unit) = .ok (withUnit ((Number.exact (r / factor)).text fractions) unit.text) := by
  have notZero : (Number.exact factor).isZero = false := decide_eq_false nonzero
  have converts : unit.measure.convertsTo quantity.measure = true := Measure.convertsTo_iff.mpr same
  simp only [textIn, converts, if_true, exact, isFactor, Number.divide, notZero, Bool.false_eq_true, if_false]
  rfl

/-- An exact quantity is shown as a plain number, or as a number with a unit that denotes it whatever prefix the name
of the unit gets; in a given unit it is shown with the number that makes it again, if there is one. -/
theorem text_denotes {quantity : Quantity} {r : Rat} (exact : quantity.magnitude = .exact r) :
    ((∀ base, (quantity.dimension.exponent base).natAbs ≤ 4096) →
      (quantity.dimension = .one ∧ quantity.text true = (Number.exact r).text true ∨
        quantity.dimension ≠ .one ∧ Denotes (quantity.text true) quantity.dimension r) ∧
      (quantity.dimension ≠ .one → ∀ candidate, quantity.named.2.Takes candidate →
        Denotes (withUnit ((quantity.numberBehind candidate).text true) (candidate.symbol ++ quantity.named.2.text))
          quantity.dimension r)) ∧
      ∀ (unit : DisplayUnit) (factor : Rat), unit.measure.factor = .exact factor → factor ≠ 0 →
        ((∃ cause, quantity.textIn true (some unit) = .error cause) ↔ unit.measure.dimension ≠ quantity.dimension) ∧
          (unit.measure.dimension = quantity.dimension → ∃ number : Rat, number * factor = r ∧
            quantity.textIn true (some unit) =
              .ok (if unit.text = "" then (Number.exact number).text true
                else (Number.exact number).text true ++ " " ++ unit.text)) := by
  refine ⟨fun small => ⟨?_, fun notOne candidate takes => ?_⟩, fun unit factor isFactor nonzero => ⟨?_, ?_⟩⟩
  · by_cases isOne : quantity.dimension = .one
    · refine Or.inl ⟨isOne, ?_⟩
      have plain : quantity.dimension.isOne = true := decide_eq_true isOne
      rw [text, if_pos plain, exact]
    · obtain ⟨number, factor, numerator, denominator, shown, presents, isProduct⟩ := exists_shown exact small isOne
      rw [shown]
      exact Or.inr ⟨isOne, denotes_of_presents presents isOne isProduct⟩
  · obtain ⟨number, factor, numerator, denominator, behind, presents, isProduct⟩ := exists_presents exact small takes
    rw [behind]
    exact denotes_of_presents presents notOne isProduct
  · constructor
    · rintro ⟨cause, failed⟩ same
      rw [textIn_some exact isFactor nonzero same] at failed
      cases failed
    · exact fun different => ⟨_, if_neg fun converts => different (Measure.convertsTo_iff.mp converts)⟩
  · exact fun same => ⟨r / factor, div_mul_cancel₀ r nonzero, textIn_some exact isFactor nonzero same true⟩

def thirdOfPound : Quantity :=
  { magnitude := .exact (45359237 / 300000000), dimension := .ofBase .mass }

def pounds : DisplayUnit :=
  { text := "lb", measure := { dimension := .ofBase .mass, factor := .exact (45359237 / 100000000) } }

theorem text_denotes_thirdOfPound :
    (∀ base, (thirdOfPound.dimension.exponent base).natAbs ≤ 4096) ∧
      Denotes (thirdOfPound.text true) (.ofBase .mass) (45359237 / 300000000) ∧
      thirdOfPound.textIn true (some pounds) = .ok "1/3 lb" := by
  have exact : thirdOfPound.magnitude = .exact (45359237 / 300000000) := rfl
  have small : ∀ base, (thirdOfPound.dimension.exponent base).natAbs ≤ 4096 := by
    intro base
    cases base <;> decide
  have notOne : thirdOfPound.dimension ≠ .one := by decide
  obtain ⟨shown, given⟩ := text_denotes exact
  refine ⟨small, ?_, ?_⟩
  · exact ((shown small).1.resolve_left fun plain => notOne plain.1).2
  · obtain ⟨number, isProduct, inPounds⟩ := (given pounds _ rfl (by norm_num)).2 rfl
    have isThird : number = 1 / 3 := by linarith
    have third : (Number.exact (1 / 3)).text true = "1/3" := by decide +kernel
    rw [inPounds, isThird, third]
    rfl

end Quantity

end QuantityCalculator
