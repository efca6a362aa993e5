import QuantityCalculator.Proofs.Amount
import QuantityCalculator.Proofs.Catalog
import QuantityCalculator.Proofs.Text

/-!
Written units are products.

A unit is written as factors with blanks between them, over others behind a stroke.  Reading it multiplies the powers
of the factors above and divides by those below, so neither their order nor the side of the stroke that a factor with
the fitting sign stands on makes a difference.
-/

namespace QuantityCalculator

open Text (isNamePart isBlank isSuperscript)

/-! ### Names -/

namespace Catalog

private theorem names_plain {name : String} (member : name ∈ Catalog.standard.names) :
    name.toList ≠ [] ∧ ∀ c, c ∈ name.toList → isNamePart c = true := by
  have each : ∀ name, name ∈ spellingNames ++ derivedNames → name ≠ [] ∧ name.all isNamePart = true := by
    decide +kernel
  obtain ⟨nonempty, plain⟩ := each _ (standard_readable.names name member)
  exact ⟨nonempty, List.all_eq_true.mp plain⟩

private theorem factor_ne_zero {entry : Entry} (member : entry ∈ Catalog.standard.entries) {factor : Rat}
    (exact : entry.measure.factor = .exact factor) : factor ≠ 0 := by
  have each : (Catalog.standard.entries.all fun entry =>
      !entry.measure.factor.isExact || !entry.measure.factor.isZero) = true := by
    decide +kernel
  have found := List.all_eq_true.mp each entry member
  rw [exact] at found
  simpa [Number.isExact, Number.isZero] using found

end Catalog

namespace Measure

def isMultiple (outcome : Except ReadError Measure) (dimension : Dimension) (factor : Rat) : Bool :=
  match outcome with
  | .ok { dimension := found, factor := .exact r } => found = dimension && r = factor
  | _ => false

theorem eq_ok_of_isMultiple {outcome : Except ReadError Measure} {dimension : Dimension} {factor : Rat}
    (multiple : isMultiple outcome dimension factor = true) :
    outcome = .ok { dimension, factor := .exact factor } := by
  unfold isMultiple at multiple
  split at multiple
  · obtain ⟨sameDimension, sameFactor⟩ := Bool.and_eq_true_iff.mp multiple
    rw [of_decide_eq_true sameDimension, of_decide_eq_true sameFactor]
  · cases multiple

/-- A name that is read is one of the catalogue, with or without a prefix. -/
theorem exists_entry_of_ofName {name : List Char} {measure : Measure} (named : ofName name = .ok measure) :
    ∃ entry label, entry ∈ Catalog.standard.entries ∧ entry.name = some label ∧
      (name = label.toList ∧ measure = entry.measure ∨
        ∃ candidate, candidate ∈ Prefix.all ∧ name = candidate.symbol.toList ++ label.toList ∧
          measure.factor = Number.ofPowerOfTen candidate.exponent * entry.measure.factor) := by
  unfold ofName at named
  split at named
  · rename_i entry found
    cases named
    obtain ⟨member, isLabel⟩ := Catalog.standard_indexed.lookup?_eq_some_iff.mp found
    exact ⟨entry, _, member, isLabel, Or.inl ⟨String.toList_ofList.symm, rfl⟩⟩
  · split at named
    · rename_i found
      cases named
      obtain ⟨candidate, inAll, prefixed⟩ := List.exists_of_findSome?_eq_some found
      obtain ⟨rest, isRest, looked⟩ := Option.bind_eq_some_iff.mp prefixed
      obtain ⟨entry, isEntry, allowed⟩ := Option.bind_eq_some_iff.mp looked
      obtain ⟨member, isLabel⟩ := Catalog.standard_indexed.lookup?_eq_some_iff.mp isEntry
      have split := List.isPrefixOf?_eq_some_iff_append_eq.mp isRest
      refine ⟨entry, _, member, isLabel, Or.inr ⟨candidate, inAll, ?_, ?_⟩⟩
      · rw [String.toList_ofList, split]
      · split at allowed
        · rw [← Option.some.inj allowed]
        · cases allowed
    · cases named

private theorem plain_of_ofName {name : List Char} {measure : Measure} (named : ofName name = .ok measure) :
    name ≠ [] ∧ ∀ c, c ∈ name → isNamePart c = true := by
  obtain ⟨entry, label, member, isLabel, same⟩ := exists_entry_of_ofName named
  obtain ⟨nonempty, plain⟩ := Catalog.names_plain (Catalog.mem_names_iff.mpr ⟨entry, member, isLabel⟩)
  rcases same with ⟨rfl, _⟩ | ⟨candidate, inAll, rfl, _⟩
  · exact ⟨nonempty, plain⟩
  · refine ⟨List.append_ne_nil_of_right_ne_nil _ nonempty, fun c inName => ?_⟩
    rcases List.mem_append.mp inName with inSymbol | inLabel
    · exact List.all_eq_true.mp (Catalog.standard_readable.symbols candidate inAll) c inSymbol
    · exact plain c inLabel

private theorem factor_ne_zero_of_ofName {name : List Char} {dimension : Dimension} {factor : Rat}
    (named : ofName name = .ok { dimension, factor := .exact factor }) : factor ≠ 0 := by
  obtain ⟨entry, label, member, _, same⟩ := exists_entry_of_ofName named
  rcases same with ⟨_, isMeasure⟩ | ⟨candidate, _, _, isFactor⟩
  · refine Catalog.factor_ne_zero member ?_
    rw [← isMeasure]
  · change Number.exact factor = _ at isFactor
    cases isEntry : entry.measure.factor with
    | exact r =>
        rw [isEntry] at isFactor
        rw [Number.exact.inj isFactor]
        exact mul_ne_zero (zpow_ne_zero _ (by decide)) (Catalog.factor_ne_zero member isEntry)
    | real x =>
        rw [isEntry] at isFactor
        cases isFactor

/-! ### Factors -/

/-- A power of a unit with a name that is read exactly. -/
structure Factor where
  name : List Char
  power : Int
  dimension : Dimension
  factor : Rat
  named : ofName name = .ok { dimension, factor := .exact factor }
  moderate : power.natAbs ≤ 4096

namespace Factor

def dimensionOf (factors : List Factor) : Dimension :=
  (factors.map fun factor => factor.power • factor.dimension).sum

def magnitudeOf (factors : List Factor) : Rat :=
  (factors.map fun factor => factor.factor ^ factor.power).prod

/-- How far the exponents of a base quantity add up in a product of factors, without regard to their signs. -/
def extent (base : BaseQuantity) (factors : List Factor) : Nat :=
  (factors.map fun factor => (factor.power * factor.dimension.exponent base).natAbs).sum

def inverse (factor : Factor) : Factor :=
  { factor with
    power := -factor.power
    moderate := (Int.natAbs_neg factor.power).symm ▸ factor.moderate }

theorem dimensionOf_cons (factor : Factor) (rest : List Factor) :
    dimensionOf (factor :: rest) = factor.power • factor.dimension + dimensionOf rest :=
  List.sum_cons

theorem magnitudeOf_cons (factor : Factor) (rest : List Factor) :
    magnitudeOf (factor :: rest) = factor.factor ^ factor.power * magnitudeOf rest :=
  List.prod_cons

theorem extent_cons (base : BaseQuantity) (factor : Factor) (rest : List Factor) :
    extent base (factor :: rest) = (factor.power * factor.dimension.exponent base).natAbs + extent base rest :=
  List.sum_cons

private theorem magnitudeOf_ne_zero (factors : List Factor) : magnitudeOf factors ≠ 0 := by
  apply List.prod_ne_zero
  intro isZero
  obtain ⟨factor, _, power⟩ := List.mem_map.mp isZero
  exact zpow_ne_zero factor.power (factor_ne_zero_of_ofName factor.named) power

private theorem exponent_dimensionOf_le (base : BaseQuantity) (factors : List Factor) :
    ((dimensionOf factors).exponent base).natAbs ≤ extent base factors := by
  induction factors with
  | nil => exact Nat.le_of_eq (congrArg Int.natAbs (Dimension.exponent_zero base))
  | cons factor rest ih =>
      rw [dimensionOf_cons, extent_cons, Dimension.exponent_add, Dimension.exponent_zsmul, smul_eq_mul]
      omega

end Factor

/-! ### Written factors -/

/-- The ways to write a power behind a name: not at all if it is one, in digits behind a caret, or in superscripts. -/
inductive WritesPower : Int → List Char → Prop where
  | one : WritesPower 1 []
  | caret {power : Int} {digits : List Char} (reads : Text.readInt? digits = some power) :
      WritesPower power ('^' :: digits)
  | raised {power : Int} {raised : List Char} (nonempty : raised ≠ [])
      (superscripts : ∀ c, c ∈ raised → isSuperscript c = true)
      (reads : Text.readInt? (raised.filterMap Text.digitOf?) = some power) : WritesPower power raised

theorem writesPower_raisedPower (power : Int) : WritesPower power (Text.raisedPower power).toList := by
  by_cases isOne : power = 1
  · rw [isOne]
    exact WritesPower.one
  · have written : (Text.raisedPower power).toList = (Int.repr power).toList.filterMap Text.superscriptOf? := by
      rw [Text.raisedPower, if_neg isOne, String.toList_ofList]
    have digits := Text.filterMap_digitOf? power
    rw [← written] at digits
    refine WritesPower.raised (fun empty => ?_) (fun c member => ?_) ?_
    · rw [empty] at digits
      exact Text.repr_ne_nil power digits.symm
    · exact (Text.superscript_plain (Text.mem_raisedPower member)).1
    · rw [digits, Text.readInt?_repr]

inductive Factor.Writes (factor : Factor) : List Char → Prop where
  | word {power : List Char} (writes : WritesPower factor.power power) : factor.Writes (factor.name ++ power)

private theorem digits_plain {text : List Char} (reads : Text.readNat? text ≠ none) {c : Char} (member : c ∈ text) :
    isBlank c = false ∧ c ≠ '/' := by
  unfold Text.readNat? at reads
  split at reads
  · rename_i digits
    have digit := List.all_eq_true.mp (Bool.and_eq_true_iff.mp digits).2 c member
    obtain ⟨d, small, rfl⟩ := Text.eq_digitChar_of_isDigit digit
    have each : ∀ d, d < 10 → isBlank (Nat.digitChar d) = false ∧ Nat.digitChar d ≠ '/' := by decide
    exact each d small
  · exact absurd rfl reads

private theorem integer_plain {text : List Char} {n : Int} (reads : Text.readInt? text = some n) {c : Char}
    (member : c ∈ text) : isBlank c = false ∧ c ≠ '/' := by
  unfold Text.readInt? at reads
  split at reads
  · rcases List.mem_cons.mp member with rfl | inDigits
    · decide
    · refine digits_plain (fun unread => ?_) inDigits
      rw [unread] at reads
      cases reads
  · rcases List.mem_cons.mp member with rfl | inDigits
    · decide
    · refine digits_plain (fun unread => ?_) inDigits
      rw [unread] at reads
      cases reads
  · refine digits_plain (fun unread => ?_) member
    rw [unread] at reads
    cases reads

theorem superscript_plain {c : Char} (superscript : isSuperscript c = true) : isBlank c = false ∧ c ≠ '/' := by
  have listed : c ∈ Text.superscriptMinus :: Text.superscriptDigits := by
    rcases Bool.or_eq_true_iff.mp superscript with isDigit | isMinus
    · exact List.mem_cons_of_mem _ (List.contains_iff_mem.mp isDigit)
    · rw [eq_of_beq isMinus]
      exact List.mem_cons_self
  obtain ⟨_, noBlank, noStroke, _⟩ := Text.superscript_plain listed
  exact ⟨noBlank, noStroke⟩

theorem WritesPower.plain {power : Int} {text : List Char} (writes : WritesPower power text) {c : Char}
    (member : c ∈ text) : isBlank c = false ∧ c ≠ '/' := by
  cases writes with
  | one => cases member
  | caret reads =>
      rcases List.mem_cons.mp member with rfl | inDigits
      · decide
      · exact integer_plain reads inDigits
  | raised _ superscripts _ => exact superscript_plain (superscripts c member)

theorem WritesPower.readPower {power : Int} {text name : List Char} (writes : WritesPower power text)
    (plain : ∀ c, c ∈ name → isNamePart c = true) (moderate : power.natAbs ≤ 4096) :
    ∃ powerText, Text.nameAndPower (name ++ text) = (name, powerText) ∧ readPower powerText = .ok power := by
  have small : Binary64.isInt32 power = true := by
    simp only [Binary64.isInt32, Bool.and_eq_true, decide_eq_true_eq]
    omega
  cases writes with
  | one => exact ⟨none, Text.nameAndPower_raised plain (List.forall_mem_nil _), rfl⟩
  | caret reads =>
      refine ⟨_, Text.nameAndPower_caret plain _, ?_⟩
      rw [Measure.readPower, reads]
      exact if_pos small
  | raised nonempty superscripts reads =>
      refine ⟨_, Text.nameAndPower_raised plain superscripts, ?_⟩
      rw [List.isEmpty_eq_false_iff.mpr nonempty, if_neg Bool.false_ne_true, Measure.readPower, reads]
      exact if_pos small

namespace Factor

theorem Writes.plain {factor : Factor} {word : List Char} (writes : factor.Writes word) :
    word ≠ [] ∧ word ≠ ['1'] ∧ ∀ c, c ∈ word → isBlank c = false ∧ c ≠ '/' := by
  obtain ⟨power⟩ := writes
  obtain ⟨nonempty, plain⟩ := plain_of_ofName factor.named
  refine ⟨List.append_ne_nil_of_left_ne_nil nonempty _, fun isOne => ?_, ?_⟩
  · -- the name of a unit does not start with a digit
    cases named : factor.name with
    | nil => exact nonempty named
    | cons first rest =>
        have isDigit := (Text.isNamePart_iff.mp (plain first (named ▸ List.mem_cons_self))).2.2.2.2
        rw [named] at isOne
        rw [(List.cons.inj isOne).1] at isDigit
        cases isDigit
  · intro c member
    rcases List.mem_append.mp member with inName | inPower
    · obtain ⟨noBlank, noStroke, _⟩ := Text.isNamePart_iff.mp (plain c inName)
      exact ⟨noBlank, noStroke⟩
    · exact power.plain inPower

theorem Writes.timesTerm {factor : Factor} {word : List Char} (writes : factor.Writes word) {dimension : Dimension}
    {magnitude : Rat}
    (fits : ∀ base, (dimension.exponent base).natAbs +
      (factor.power * factor.dimension.exponent base).natAbs ≤ 2147483647) :
    timesTerm { dimension, factor := .exact magnitude } word =
      .ok { dimension := dimension + factor.power • factor.dimension
            factor := .exact (magnitude * factor.factor ^ factor.power) } := by
  obtain ⟨power⟩ := writes
  obtain ⟨powerText, split, isPower⟩ := power.readPower (plain_of_ofName factor.named).2 factor.moderate
  have powered : factor.dimension.pow? factor.power = some (factor.power • factor.dimension) := by
    refine Dimension.pow?_eq_some.mpr ⟨rfl, fun base => ?_⟩
    have bound := fits base
    rw [Dimension.exponent_zsmul, smul_eq_mul]
    simp only [Binary64.isInt32, Bool.and_eq_true, decide_eq_true_eq]
    omega
  have multiplied : dimension.mul? (factor.power • factor.dimension) =
      some (dimension + factor.power • factor.dimension) := by
    refine Dimension.mul?_eq_some.mpr ⟨rfl, fun base => ?_⟩
    have bound := fits base
    rw [Dimension.exponent_add, Dimension.exponent_zsmul, smul_eq_mul]
    simp only [Binary64.isInt32, Bool.and_eq_true, decide_eq_true_eq]
    omega
  have raised : (Number.exact factor.factor).raise (.exact (factor.power : Rat)) =
      .ok (.exact (factor.factor ^ factor.power)) := by
    have whole : Amount.IsWhole (factor.power : Rat) := by
      refine ⟨Rat.den_intCast factor.power, ?_⟩
      rw [Rat.num_intCast]
      exact factor.moderate
    have nonzero := factor_ne_zero_of_ofName factor.named
    rw [Amount.raise_number whole fun improper => nonzero improper.1, Rat.num_intCast]
  unfold Measure.timesTerm
  simp only [split, isPower, factor.named, timesPower?, powered, multiplied, raised, bind, Except.bind, Option.bind]
  rfl

private theorem foldlM_timesTerm {factors : List Factor} {words : List (List Char)}
    (each : List.Forall₂ Writes factors words)
    {dimension : Dimension} {magnitude : Rat}
    (fits : ∀ base, (dimension.exponent base).natAbs + extent base factors ≤ 2147483647) :
    words.foldlM Measure.timesTerm { dimension, factor := .exact magnitude } =
      .ok { dimension := dimension + dimensionOf factors, factor := .exact (magnitude * magnitudeOf factors) } := by
  induction each generalizing dimension magnitude with
  | nil =>
      change Except.ok _ = Except.ok _
      rw [show dimensionOf [] = 0 from rfl, show magnitudeOf [] = 1 from rfl, add_zero, mul_one]
  | @cons factor word rest more writes _ ih =>
      have inRest : ∀ base, ((dimension + factor.power • factor.dimension).exponent base).natAbs +
          extent base rest ≤ 2147483647 := by
        intro base
        have bound := fits base
        rw [extent_cons] at bound
        rw [Dimension.exponent_add, Dimension.exponent_zsmul, smul_eq_mul]
        omega
      have inFirst : ∀ base, (dimension.exponent base).natAbs +
          (factor.power * factor.dimension.exponent base).natAbs ≤ 2147483647 := by
        intro base
        have bound := fits base
        rw [extent_cons] at bound
        omega
      rw [List.foldlM_cons, writes.timesTerm inFirst]
      change more.foldlM Measure.timesTerm _ = _
      rw [ih inRest, dimensionOf_cons, magnitudeOf_cons, add_assoc, mul_assoc]

end Factor

/-! ### Written units -/

/-- The ways to write a product: its factors with blanks between them, or a one if there are none. -/
inductive WritesHalf : List Factor → List Char → Prop where
  | one {text : List Char} (alone : Text.Spaced [['1']] text) : WritesHalf [] text
  | factors {factors : List Factor} {words : List (List Char)} {text : List Char}
      (each : List.Forall₂ Factor.Writes factors words) (spaced : Text.Spaced words text) : WritesHalf factors text

/-- The ways to write a unit: a product, over another one behind a stroke if there is one. -/
inductive Writes : List Factor → List Factor → List Char → Prop where
  | product {numerator : List Factor} {text : List Char} (above : WritesHalf numerator text) :
      Writes numerator [] text
  | quotient {numerator denominator : List Factor} {upper lower : List Char} (above : WritesHalf numerator upper)
      (below : WritesHalf denominator lower) : Writes numerator denominator (upper ++ '/' :: lower)

open Factor (dimensionOf magnitudeOf extent)

private theorem words_plain {factors : List Factor} {words : List (List Char)}
    (each : List.Forall₂ Factor.Writes factors words) {word : List Char} (member : word ∈ words) :
    word ≠ [] ∧ word ≠ ['1'] ∧ ∀ c, c ∈ word → isBlank c = false ∧ c ≠ '/' := by
  obtain ⟨index, inside, rfl⟩ := List.getElem_of_mem member
  have inFactors : index < factors.length := each.length_eq ▸ inside
  exact (each.get inFactors inside).plain

theorem WritesHalf.noStroke {factors : List Factor} {text : List Char} (writes : WritesHalf factors text) {c : Char}
    (member : c ∈ text) : c ≠ '/' := by
  have blank : isBlank c = true → c ≠ '/' := by
    rintro isBlank rfl
    cases isBlank
  cases writes with
  | one alone =>
      rcases Text.mem_of_spaced alone member with isBlank | ⟨word, isOne, inWord⟩
      · exact blank isBlank
      · rw [List.mem_singleton.mp isOne] at inWord
        rw [List.mem_singleton.mp inWord]
        decide
  | factors each spaced =>
      rcases Text.mem_of_spaced spaced member with isBlank | ⟨word, inWords, inWord⟩
      · exact blank isBlank
      · exact ((words_plain each inWords).2.2 c inWord).2

private theorem readHalf_of_writes {factors : List Factor} {text : List Char} (writes : WritesHalf factors text)
    (fits : ∀ base, extent base factors ≤ 2147483647) :
    readHalf text = .ok { dimension := dimensionOf factors, factor := .exact (magnitudeOf factors) } := by
  cases writes with
  | one alone =>
      have isOne : Text.words text = [['1']] :=
        Text.words_of_spaced alone
          (List.forall_mem_singleton.mpr ⟨List.cons_ne_nil _ _, List.forall_mem_singleton.mpr rfl⟩)
      rw [readHalf, isOne]
      rfl
  | @factors _ words _ each spaced =>
      have found : Text.words text = words := Text.words_of_spaced spaced fun word member =>
        have plain := words_plain each member
        ⟨plain.1, fun c inWord => (plain.2.2 c inWord).1⟩
      have all : words.foldlM timesTerm one =
          .ok { dimension := 0 + dimensionOf factors, factor := .exact (1 * magnitudeOf factors) } := by
        refine Factor.foldlM_timesTerm each fun base => ?_
        rw [Dimension.one_eq_zero, Dimension.exponent_zero, Int.natAbs_zero, Nat.zero_add]
        exact fits base
      rw [zero_add, one_mul] at all
      unfold readHalf
      rw [found]
      split
      · exact absurd rfl (words_plain each List.mem_cons_self).2.1
      · exact all

private theorem quotient?_exact {above below : Dimension} {upper lower : Rat} (nonzero : lower ≠ 0)
    (inRange : (above - below).InRange) :
    quotient? { dimension := above, factor := .exact upper } { dimension := below, factor := .exact lower } =
      some { dimension := above - below, factor := .exact (upper / lower) } := by
  have divided : above.div? below = some (above - below) := Dimension.div?_eq_some.mpr ⟨rfl, inRange⟩
  have notZero : (Number.exact lower).isZero = false := decide_eq_false nonzero
  simp only [quotient?, divided, Number.divide, notZero, bind, Option.bind]
  rfl

private theorem readHalves_of_writes {numerator denominator : List Factor} {text : List Char}
    (writes : Writes numerator denominator text) (above : ∀ base, extent base numerator ≤ 2147483647)
    (below : ∀ base, extent base denominator ≤ 2147483647) :
    readHalf (text.takeWhile (· != '/')) =
        .ok { dimension := dimensionOf numerator, factor := .exact (magnitudeOf numerator) } ∧
      readHalf ((text.dropWhile (· != '/')).drop 1) =
        .ok { dimension := dimensionOf denominator, factor := .exact (magnitudeOf denominator) } := by
  cases writes with
  | product upper =>
      have noStroke : ∀ c, c ∈ text → (c != '/') = true := fun c member => bne_iff_ne.mpr (upper.noStroke member)
      rw [List.takeWhile_eq_self_iff.mpr noStroke, List.dropWhile_eq_nil_iff.mpr noStroke]
      exact ⟨readHalf_of_writes upper above, rfl⟩
  | @quotient _ before after upper lower =>
      have noStroke : ∀ c, c ∈ before → (c != '/') = true := fun c member => bne_iff_ne.mpr (upper.noStroke member)
      have stop : ('/' :: after).takeWhile (· != '/') = [] := rfl
      have rest : (('/' :: after).dropWhile (· != '/')).drop 1 = after := rfl
      rw [List.takeWhile_append_of_pos noStroke, List.dropWhile_append_of_pos noStroke, stop, rest, List.append_nil]
      exact ⟨readHalf_of_writes upper above, readHalf_of_writes lower below⟩

theorem read_of_writes {numerator denominator : List Factor} {text : List Char}
    (writes : Writes numerator denominator text)
    (fits : ∀ base, extent base numerator + extent base denominator ≤ 2147483647) :
    read text = .ok { dimension := dimensionOf numerator - dimensionOf denominator
                      factor := .exact (magnitudeOf numerator / magnitudeOf denominator) } := by
  obtain ⟨upper, lower⟩ := readHalves_of_writes writes (fun base => (Nat.le_add_right _ _).trans (fits base))
    fun base => (Nat.le_add_left _ _).trans (fits base)
  have inRange : (dimensionOf numerator - dimensionOf denominator).InRange := by
    intro base
    have bound := fits base
    have above := Factor.exponent_dimensionOf_le base numerator
    have below := Factor.exponent_dimensionOf_le base denominator
    rw [Dimension.exponent_sub]
    simp only [Binary64.isInt32, Bool.and_eq_true, decide_eq_true_eq]
    omega
  unfold read
  rw [upper, lower]
  simp only [bind, Except.bind, quotient?_exact (Factor.magnitudeOf_ne_zero denominator) inRange]
  rfl

/-! ### Signed factors -/

namespace Factor

/-- All factors of a quotient, where those of the denominator have their powers negated. -/
def signed (numerator denominator : List Factor) : List Factor :=
  numerator ++ denominator.map inverse

theorem dimensionOf_append (before after : List Factor) :
    dimensionOf (before ++ after) = dimensionOf before + dimensionOf after := by
  rw [dimensionOf, List.map_append, List.sum_append, dimensionOf, dimensionOf]

theorem magnitudeOf_append (before after : List Factor) :
    magnitudeOf (before ++ after) = magnitudeOf before * magnitudeOf after := by
  rw [magnitudeOf, List.map_append, List.prod_append, magnitudeOf, magnitudeOf]

theorem extent_append (base : BaseQuantity) (before after : List Factor) :
    extent base (before ++ after) = extent base before + extent base after := by
  rw [extent, List.map_append, List.sum_append, extent, extent]

theorem dimensionOf_inverse (factors : List Factor) : dimensionOf (factors.map inverse) = -dimensionOf factors := by
  induction factors with
  | nil => exact neg_zero.symm
  | cons factor rest ih =>
      rw [List.map_cons, dimensionOf_cons, dimensionOf_cons, ih, neg_add, ← neg_zsmul]
      rfl

theorem magnitudeOf_inverse (factors : List Factor) : magnitudeOf (factors.map inverse) = (magnitudeOf factors)⁻¹ := by
  induction factors with
  | nil => exact inv_one.symm
  | cons factor rest ih =>
      rw [List.map_cons, magnitudeOf_cons, magnitudeOf_cons, ih, mul_inv, ← zpow_neg]
      rfl

theorem extent_inverse (base : BaseQuantity) (factors : List Factor) :
    extent base (factors.map inverse) = extent base factors := by
  induction factors with
  | nil => rfl
  | cons factor rest ih =>
      rw [List.map_cons, extent_cons, extent_cons, ih]
      change (-factor.power * factor.dimension.exponent base).natAbs + _ = _
      rw [Int.neg_mul, Int.natAbs_neg]

private theorem dimensionOf_signed (numerator denominator : List Factor) :
    dimensionOf (signed numerator denominator) = dimensionOf numerator - dimensionOf denominator := by
  rw [signed, dimensionOf_append, dimensionOf_inverse, sub_eq_add_neg]

private theorem magnitudeOf_signed (numerator denominator : List Factor) :
    magnitudeOf (signed numerator denominator) = magnitudeOf numerator / magnitudeOf denominator := by
  rw [signed, magnitudeOf_append, magnitudeOf_inverse, div_eq_mul_inv]

private theorem extent_signed (base : BaseQuantity) (numerator denominator : List Factor) :
    extent base (signed numerator denominator) = extent base numerator + extent base denominator := by
  rw [signed, extent_append, extent_inverse]

theorem dimensionOf_perm {factors others : List Factor} (same : factors.Perm others) :
    dimensionOf factors = dimensionOf others :=
  (same.map _).sum_eq

theorem magnitudeOf_perm {factors others : List Factor} (same : factors.Perm others) :
    magnitudeOf factors = magnitudeOf others :=
  (same.map _).prod_eq

theorem extent_perm (base : BaseQuantity) {factors others : List Factor} (same : factors.Perm others) :
    extent base factors = extent base others :=
  (same.map _).sum_eq

end Factor

/-- A written unit is read as the product of its factors.  The same factors in another order, on the other side of the
stroke with their powers negated, or with powers in another notation are read as the same unit. -/
theorem read_product {numerator denominator : List Factor} {text : List Char}
    (writes : Writes numerator denominator text)
    (fits : ∀ base, extent base numerator + extent base denominator ≤ 2147483647) :
    read text = .ok { dimension := dimensionOf numerator - dimensionOf denominator
                      factor := .exact (magnitudeOf numerator / magnitudeOf denominator) } ∧
      ∀ {above below : List Factor} {other : List Char}, Writes above below other →
        (Factor.signed above below).Perm (Factor.signed numerator denominator) → read other = read text := by
  have isProduct := read_of_writes writes fits
  refine ⟨isProduct, fun {above below other} alike same => ?_⟩
  have inRange : ∀ base, extent base above + extent base below ≤ 2147483647 := by
    intro base
    rw [← Factor.extent_signed, Factor.extent_perm base same, Factor.extent_signed]
    exact fits base
  rw [isProduct, read_of_writes alike inRange, ← Factor.dimensionOf_signed, ← Factor.magnitudeOf_signed,
    Factor.dimensionOf_perm same, Factor.magnitudeOf_perm same, Factor.dimensionOf_signed, Factor.magnitudeOf_signed]

def squareKilometre : Factor where
  name := "km".toList
  power := 2
  dimension := .ofBase .length
  factor := 1000
  named := eq_ok_of_isMultiple (by decide +kernel)
  moderate := by decide

def perSecond : Factor where
  name := "s".toList
  power := -1
  dimension := .ofBase .time
  factor := 1
  named := eq_ok_of_isMultiple (by decide +kernel)
  moderate := by decide

def milligram : Factor where
  name := "mg".toList
  power := 1
  dimension := .ofBase .mass
  factor := 1 / 1000000
  named := eq_ok_of_isMultiple (by decide +kernel)
  moderate := by decide

theorem read_product_moved :
    Writes [squareKilometre, perSecond] [milligram] ("km² s^-1 ".toList ++ '/' :: " mg".toList) ∧
      (∀ base, extent base [squareKilometre, perSecond] + extent base [milligram] ≤ 2147483647) ∧
      read ("km² s^-1 ".toList ++ '/' :: " mg".toList) =
        .ok { dimension := Dimension.ofBases [.length, .length] [.mass, .time], factor := .exact 1000000000000 } ∧
      read ("1 ".toList ++ '/' :: " mg s km^-2".toList) = read ("km² s^-1 ".toList ++ '/' :: " mg".toList) := by
  have blank : isBlank ' ' = true := rfl
  have squared : squareKilometre.Writes "km²".toList := Factor.Writes.word (writesPower_raisedPower 2)
  have minusOne : Text.readInt? "-1".toList = some (-1) := by decide
  have minusTwo : Text.readInt? "-2".toList = some (-2) := by decide
  have caret : squareKilometre.inverse.Writes "km^-2".toList := Factor.Writes.word (WritesPower.caret minusTwo)
  have inverted : perSecond.Writes "s^-1".toList := Factor.Writes.word (WritesPower.caret minusOne)
  have second : perSecond.inverse.Writes "s".toList := Factor.Writes.word WritesPower.one
  have mass : milligram.Writes "mg".toList := Factor.Writes.word WritesPower.one
  have writes : Writes [squareKilometre, perSecond] [milligram] ("km² s^-1 ".toList ++ '/' :: " mg".toList) := by
    refine Writes.quotient (WritesHalf.factors (.cons squared (.cons inverted .nil)) ?_)
      (WritesHalf.factors (.cons mass .nil) ?_)
    · exact (Text.spaced_intercalate ["km²".toList, "s^-1".toList]).append_blank blank
    · exact (Text.spaced_intercalate ["mg".toList]).cons_blank blank
  have moved : Writes [] [milligram, perSecond.inverse, squareKilometre.inverse]
      ("1 ".toList ++ '/' :: " mg s km^-2".toList) := by
    refine Writes.quotient (WritesHalf.one ?_)
      (WritesHalf.factors (.cons mass (.cons second (.cons caret .nil))) ?_)
    · exact (Text.spaced_intercalate ["1".toList]).append_blank blank
    · exact (Text.spaced_intercalate ["mg".toList, "s".toList, "km^-2".toList]).cons_blank blank
  have fits : ∀ base, extent base [squareKilometre, perSecond] + extent base [milligram] ≤ 2147483647 := by
    intro base
    cases base <;> decide
  obtain ⟨isProduct, alike⟩ := read_product writes fits
  refine ⟨writes, fits, ?_, alike moved ?_⟩
  · have dimension : dimensionOf [squareKilometre, perSecond] - dimensionOf [milligram] =
        Dimension.ofBases [.length, .length] [.mass, .time] := by
      decide
    have magnitude : magnitudeOf [squareKilometre, perSecond] / magnitudeOf [milligram] = 1000000000000 := by
      norm_num [magnitudeOf, squareKilometre, perSecond, milligram]
    rw [isProduct, dimension, magnitude]
  · exact List.reverse_perm (Factor.signed [squareKilometre, perSecond] [milligram])

end Measure

end QuantityCalculator
