import QuantityCalculator.Proofs.Catalog
import QuantityCalculator.Proofs.Measure.Reading

/-!
Names of dimensions are read back.

Whatever spelling of a dimension is the lightest, the text is read as the coherent unit of the dimension, and
with a prefix as the multiple that the prefix and its power stand for.
-/

namespace QuantityCalculator

open QuantityCalculator.Measure (Term Spells Presents halfText halfText_one)
open QuantityCalculator.Measure.Term (dimensionOf factorOf dimensionOf_cons dimensionOf_nil factorOf_cons
  factorOf_nil)

namespace UnitName

/-- Without a prefix and with each that it takes, a name is read as a multiple of the coherent unit. -/
def Reads (dimension : Dimension) (name : UnitName) : Prop :=
  ∀ candidate, candidate = Prefix.empty ∨ candidate ∈ Prefix.all ∧ name.allows candidate.symbol = true →
    Measure.read (candidate.symbol ++ name.text).toList =
      .ok { dimension, factor := .exact ((10 : Rat) ^ (candidate.exponent * name.prefixPower)) }

/-- Without a prefix and with each that it takes, a name is written as a quotient of terms in letters. -/
def Spelled (dimension : Dimension) (name : UnitName) : Prop :=
  ∀ candidate, candidate = Prefix.empty ∨ candidate ∈ Prefix.all ∧ name.allows candidate.symbol = true →
    ∃ numerator denominator, Presents dimension ((10 : Rat) ^ (candidate.exponent * name.prefixPower)) numerator
      denominator (candidate.symbol ++ name.text).toList

theorem Spelled.reads {dimension : Dimension} {name : UnitName} (spelled : name.Spelled dimension) :
    name.Reads dimension := by
  intro candidate allowed
  obtain ⟨numerator, denominator, presents⟩ := spelled candidate allowed
  exact presents.read

/-! ### Named units -/

def term {entry : Catalog.Entry} (naming : entry ∈ Catalog.standard.namingEntries) {candidate : Prefix}
    (takes : entry.Takes candidate) (power : Int) (moderate : power.natAbs ≤ 4096)
    (small : ∀ base, (power * entry.measure.dimension.exponent base).natAbs ≤ 4096) : Term where
  name := candidate.symbol.toList ++ (label entry).toList
  power := power
  dimension := entry.measure.dimension
  factor := (10 : Rat) ^ candidate.exponent
  nonempty := List.append_ne_nil_of_right_ne_nil _ (Catalog.label_ne_nil naming)
  plain := Catalog.name_plain naming takes
  named := Catalog.read_name naming takes
  nonzero := zpow_ne_zero _ (by decide)
  moderate := moderate
  small := small

private theorem term_inLetters {entry : Catalog.Entry} (naming : entry ∈ Catalog.standard.namingEntries)
    {candidate : Prefix} (takes : entry.Takes candidate) {power : Int} (moderate : power.natAbs ≤ 4096)
    (small : ∀ base, (power * entry.measure.dimension.exponent base).natAbs ≤ 4096) :
    (term naming takes power moderate small).InLetters :=
  Catalog.name_letters naming takes

private theorem takes_of_allows {entry : Catalog.Entry} {name : UnitName} (barred : name.barred = entry.barred)
    {candidate : Prefix}
    (allowed : candidate = Prefix.empty ∨ candidate ∈ Prefix.all ∧ name.allows candidate.symbol = true) :
    entry.Takes candidate := by
  refine allowed.imp_right fun ⟨member, allows⟩ => ⟨member, ?_⟩
  have notBarred := (Bool.and_eq_true_iff.mp allows).2
  rw [barred] at notBarred
  exact notBarred

private theorem natAbs_one_le : (1 : Int).natAbs ≤ 4096 := by decide

def single {entry : Catalog.Entry} (naming : entry ∈ Catalog.standard.namingEntries) {candidate : Prefix}
    (takes : entry.Takes candidate) : Term :=
  term naming takes 1 natAbs_one_le fun base => by
    have small := Catalog.exponent_le naming base
    omega

private theorem single_text {entry : Catalog.Entry} (naming : entry ∈ Catalog.standard.namingEntries)
    {candidate : Prefix} (takes : entry.Takes candidate) :
    (single naming takes).text = candidate.symbol.toList ++ (label entry).toList := by
  have noPower : (Text.raisedPower 1).toList = [] := rfl
  change _ ++ (Text.raisedPower 1).toList = _
  rw [noPower, List.append_nil]
  rfl

private theorem single_dimension {entry : Catalog.Entry} (naming : entry ∈ Catalog.standard.namingEntries)
    {candidate : Prefix} (takes : entry.Takes candidate) :
    (single naming takes).power • (single naming takes).dimension = entry.measure.dimension :=
  one_zsmul _

private theorem single_noMarker {entry : Catalog.Entry} (naming : entry ∈ Catalog.standard.namingEntries)
    (takes : entry.Takes Prefix.empty) : (single naming takes).name ≠ ['a', 's'] :=
  Catalog.label_ne_marker naming

private theorem pow?_of_powerGiving? {dimension target : Dimension} {power : Int}
    (found : dimension.powerGiving? target = some power) :
    dimension.pow? power = some target ∧ ∃ base, dimension.exponent base ≠ 0 := by
  unfold Dimension.powerGiving? at found
  split at found
  · cases found
  · rename_i base exponent rest factors
    dsimp only at found
    split at found
    · rename_i raised
      refine ⟨Option.some.inj found ▸ raised, base, ?_⟩
      have member : (base, exponent) ∈ dimension.factors := by
        rw [factors]
        exact List.mem_cons_self
      obtain ⟨inAll, nonzero⟩ := List.mem_filter.mp member
      obtain ⟨other, _, isPair⟩ := List.mem_map.mp inAll
      cases isPair
      exact bne_iff_ne.mp nonzero
    · cases found

/-- The powers up to the greatest exponent of a dimension are all that can give it. -/
theorem natAbs_le_largestPower_of_powerGiving? {dimension target : Dimension} {power : Int}
    (found : dimension.powerGiving? target = some power) : power.natAbs ≤ target.largestPower := by
  obtain ⟨raised, base, nonzero⟩ := pow?_of_powerGiving? found
  have multiple : target.exponent base = power * dimension.exponent base := by
    rw [(Dimension.pow?_eq_some.mp raised).1, Dimension.exponent_zsmul, smul_eq_mul]
  calc power.natAbs ≤ power.natAbs * (dimension.exponent base).natAbs :=
        Nat.le_mul_of_pos_right _ (Int.natAbs_pos.mpr nonzero)
    _ = (target.exponent base).natAbs := by rw [multiple, Int.natAbs_mul]
    _ ≤ target.largestPower := Dimension.largestPower_le_iff.mp (Nat.le_refl _) base

private theorem powerSpelling_spelled {dimension : Dimension} (small : ∀ base, (dimension.exponent base).natAbs ≤ 4096)
    {entry : Catalog.Entry} (naming : entry ∈ Catalog.standard.namingEntries) {spelling : Spelling}
    (found : powerSpelling? dimension entry = some spelling) : spelling.name.Spelled dimension := by
  unfold powerSpelling? at found
  split at found
  · rename_i power giving
    split at found
    · cases found
    · rw [← Option.some.inj found]
      obtain ⟨isMultiple, _⟩ := Dimension.pow?_eq_some.mp (pow?_of_powerGiving? giving).1
      have multiple : ∀ base, dimension.exponent base = power * entry.measure.dimension.exponent base := by
        intro base
        rw [isMultiple, Dimension.exponent_zsmul, smul_eq_mul]
      have smallPower : ∀ base, (power * entry.measure.dimension.exponent base).natAbs ≤ 4096 :=
        fun base => multiple base ▸ small base
      have moderate : power.natAbs ≤ 4096 :=
        Nat.le_trans (natAbs_le_largestPower_of_powerGiving? giving) (Dimension.largestPower_le_iff.mpr small)
      intro candidate allowed
      have takes : entry.Takes candidate := takes_of_allows rfl allowed
      have text : (candidate.symbol ++ (label entry ++ Text.raisedPower power)).toList =
          halfText [term naming takes power moderate smallPower] := by
        rw [halfText_one, String.toList_append, String.toList_append, ← List.append_assoc]
        rfl
      refine ⟨[term naming takes power moderate smallPower], [], text ▸ Spells.whole _,
        Nat.le_of_ble_eq_true rfl, Nat.zero_le _, ?_, ?_, ?_, ?_⟩
      · rw [isMultiple]
        simp [term]
      · simp [term, zpow_mul]
      · exact List.forall_mem_singleton.mpr (term_inLetters naming takes moderate smallPower)
      · exact List.forall_mem_nil _
  · cases found

/-- The product of a named unit, possibly with a prefix, and another one. -/
theorem product_spelled {dimension : Dimension} {first second : Catalog.Entry}
    (firstNaming : first ∈ Catalog.standard.namingEntries)
    (secondNaming : second ∈ Catalog.standard.namingEntries)
    (made : first.measure.dimension.mul? second.measure.dimension = some dimension) :
    (compound " " first second).name.Spelled dimension := by
  intro candidate allowed
  have takes : first.Takes candidate := takes_of_allows rfl allowed
  have noPrefix : second.Takes Prefix.empty := Or.inl rfl
  have text : (candidate.symbol ++ (compound " " first second).name.text).toList =
      halfText [single firstNaming takes, single secondNaming noPrefix] := by
    rw [Measure.halfText_cons_cons, halfText_one, single_text, single_text]
    simp [compound, Prefix.empty]
  refine ⟨[single firstNaming takes, single secondNaming noPrefix], [], text ▸ Spells.whole _,
    Nat.le_of_ble_eq_true rfl, Nat.zero_le _, ?_, ?_, ?_, ?_⟩
  · rw [dimensionOf_cons, dimensionOf_cons, single_dimension, single_dimension, dimensionOf_nil, add_zero,
      sub_zero]
    exact (Dimension.mul?_eq_some.mp made).1.symm
  · simp [single, term, compound, Prefix.empty]
  · exact List.forall_mem_cons.mpr ⟨term_inLetters firstNaming takes _ _,
      List.forall_mem_singleton.mpr (term_inLetters secondNaming noPrefix _ _)⟩
  · exact List.forall_mem_singleton.mpr (single_noMarker secondNaming noPrefix)

private theorem quotient_spelled {dimension : Dimension} {first second : Catalog.Entry}
    (firstNaming : first ∈ Catalog.standard.namingEntries)
    (secondNaming : second ∈ Catalog.standard.namingEntries)
    (made : first.measure.dimension.div? second.measure.dimension = some dimension) :
    (compound " / " first second).name.Spelled dimension := by
  intro candidate allowed
  have takes : first.Takes candidate := takes_of_allows rfl allowed
  have noPrefix : second.Takes Prefix.empty := Or.inl rfl
  have text : (candidate.symbol ++ (compound " / " first second).name.text).toList =
      halfText [single firstNaming takes] ++ (" / ".toList ++ halfText [single secondNaming noPrefix]) := by
    rw [halfText_one, halfText_one, single_text, single_text]
    simp [compound, Prefix.empty]
  refine ⟨[single firstNaming takes], [single secondNaming noPrefix],
    text ▸ Spells.quotient (List.cons_ne_nil _ _) (List.cons_ne_nil _ _), Nat.le_of_ble_eq_true rfl,
    Nat.le_of_ble_eq_true rfl, ?_, ?_, ?_, ?_⟩
  · rw [dimensionOf_cons, dimensionOf_cons, single_dimension, single_dimension, dimensionOf_nil, add_zero,
      add_zero]
    exact (Dimension.div?_eq_some.mp made).1.symm
  · simp [single, term, compound, Prefix.empty]
  · exact List.forall_mem_cons.mpr ⟨term_inLetters firstNaming takes _ _,
      List.forall_mem_singleton.mpr (term_inLetters secondNaming noPrefix _ _)⟩
  · exact List.forall_mem_singleton.mpr (single_noMarker secondNaming noPrefix)

/-! ### Base units -/

def sumOf (factors : List (BaseQuantity × Int)) : Dimension :=
  (factors.map fun factor => (factor.2.natAbs : Int) • Dimension.ofBase factor.1).sum

theorem sumOf_cons (factor : BaseQuantity × Int) (rest : List (BaseQuantity × Int)) :
    sumOf (factor :: rest) = (factor.2.natAbs : Int) • Dimension.ofBase factor.1 + sumOf rest := by
  rw [sumOf, List.map_cons, List.sum_cons]
  rfl

private theorem sum_signs (factors : List (BaseQuantity × Int)) :
    sumOf ((factors.filter fun factor => factor.2 != 0).filter fun factor => 0 < factor.2) -
        sumOf ((factors.filter fun factor => factor.2 != 0).filter fun factor => factor.2 < 0) =
      (factors.map fun factor => factor.2 • Dimension.ofBase factor.1).sum := by
  induction factors with
  | nil => rfl
  | cons factor rest ih =>
      obtain ⟨base, exponent⟩ := factor
      rw [List.map_cons, List.sum_cons, ← ih]
      rcases lt_trichotomy exponent 0 with negative | zero | positive
      · have size : (exponent.natAbs : Int) = -exponent := by omega
        simp only [List.filter_cons, bne_iff_ne.mpr negative.ne, decide_eq_true negative,
          decide_eq_false negative.le.not_gt, if_true, if_false, Bool.false_eq_true, sumOf_cons, size, neg_smul]
        abel
      · subst zero
        simp only [List.filter_cons, bne_self_eq_false, Bool.false_eq_true, if_false, zero_smul, zero_add]
      · have size : (exponent.natAbs : Int) = exponent := by omega
        simp only [List.filter_cons, bne_iff_ne.mpr positive.ne', decide_eq_true positive,
          decide_eq_false positive.le.not_gt, if_true, if_false, Bool.false_eq_true, sumOf_cons, size]
        abel

private theorem sum_bases (dimension : Dimension) :
    ((BaseQuantity.all.map fun base => (base, dimension.exponent base)).map fun factor =>
      factor.2 • Dimension.ofBase factor.1).sum = dimension := by
  apply Dimension.eq_of_exponent
  intro base
  cases base <;> simp [BaseQuantity.all, Dimension.ofBase]

/-- The two halves of a dimension together make it. -/
theorem sum_factors (dimension : Dimension) :
    sumOf (dimension.factors.filter fun factor => 0 < factor.2) -
      sumOf (dimension.factors.filter fun factor => factor.2 < 0) = dimension :=
  (sum_signs _).trans (sum_bases dimension)

/-- A power of a base unit, with a prefix that the unit takes. -/
theorem exists_base_term {base : BaseQuantity} {power : Int} (moderate : power.natAbs ≤ 4096)
    {candidate : Prefix} (fits : candidate = Prefix.empty ∨ candidate ∈ Prefix.all ∧ base ≠ .mass) :
    ∃ term : Term,
      term.text = candidate.symbol.toList ++ (base.symbol ++ Text.raisedPower power).toList ∧
      term.power • term.dimension = power • Dimension.ofBase base ∧
      term.factor ^ term.power = (10 : Rat) ^ (candidate.exponent * power) ∧
      term.InLetters ∧ (candidate = Prefix.empty → term.name ≠ ['a', 's']) := by
  obtain ⟨entry, naming, labelled, isBase, barred⟩ := Catalog.exists_entry base
  have takes : entry.Takes candidate := by
    refine fits.imp_right fun ⟨member, noMass⟩ => ⟨member, ?_⟩
    rw [Catalog.Entry.allows, barred noMass]
    rfl
  have small : ∀ other, (power * entry.measure.dimension.exponent other).natAbs ≤ 4096 := by
    intro other
    rw [isBase, Dimension.ofBase, Dimension.exponent_ofExponents]
    split <;> omega
  refine ⟨term naming takes power moderate small, ?_, congrArg (power • ·) isBase, (zpow_mul _ _ _).symm,
    term_inLetters naming takes moderate small, ?_⟩
  · rw [String.toList_append, ← labelled, ← List.append_assoc]
    rfl
  · rintro rfl
    exact Catalog.label_ne_marker naming

/-- The terms that spell a half without a prefix. -/
theorem exists_base_terms {factors : List (BaseQuantity × Int)}
    (moderate : ∀ factor, factor ∈ factors → factor.2.natAbs ≤ 4096) :
    ∃ terms : List Term,
      terms.map Term.text =
        factors.map (fun factor => (factor.1.symbol ++ Text.raisedPower (factor.2.natAbs : Int)).toList) ∧
      dimensionOf terms = sumOf factors ∧ factorOf terms = 1 ∧
      ∀ term, term ∈ terms → term.InLetters ∧ term.name ≠ ['a', 's'] := by
  induction factors with
  | nil => exact ⟨[], rfl, rfl, rfl, List.forall_mem_nil _⟩
  | cons factor rest ih =>
      obtain ⟨terms, texts, dimensions, factorIsOne, letters⟩ := ih fun other member =>
        moderate other (List.mem_cons_of_mem _ member)
      have power : ((factor.2.natAbs : Int)).natAbs ≤ 4096 := moderate factor List.mem_cons_self
      have withoutPrefix : Prefix.empty = Prefix.empty ∨ Prefix.empty ∈ Prefix.all ∧ factor.1 ≠ .mass :=
        Or.inl rfl
      obtain ⟨term, text, dimension, multiple, inLetters, noMarker⟩ := exists_base_term power withoutPrefix
      refine ⟨term :: terms, ?_, ?_, ?_, List.forall_mem_cons.mpr ⟨⟨inLetters, noMarker rfl⟩, letters⟩⟩
      · rw [List.map_cons, List.map_cons, texts, text]
        rfl
      · rw [dimensionOf_cons, sumOf_cons, dimension, dimensions]
      · rw [factorOf_cons, multiple, factorIsOne]
        simp [Prefix.empty]

private theorem append_intercalate (front word : List Char) (rest : List (List Char)) :
    front ++ [' '].intercalate (word :: rest) = [' '].intercalate ((front ++ word) :: rest) := by
  cases rest with
  | nil => rw [List.intercalate_singleton, List.intercalate_singleton]
  | cons second others =>
      rw [List.intercalate_cons_cons, List.intercalate_cons_cons, List.append_assoc, List.append_assoc,
        List.append_assoc]

private theorem toList_halfText (factors : List (BaseQuantity × Int)) :
    (Dimension.halfText factors).toList = [' '].intercalate
      (factors.map fun factor => (factor.1.symbol ++ Text.raisedPower (factor.2.natAbs : Int)).toList) := by
  rw [Dimension.halfText, String.toList_intercalate, List.map_map]
  rfl

def leadingPower : List (BaseQuantity × Int) → Int
  | [] => 0
  | factor :: _ => factor.2.natAbs

/-- The terms that spell a numerator, with a prefix at its first unit. -/
theorem exists_numerator {factors : List (BaseQuantity × Int)}
    (moderate : ∀ factor, factor ∈ factors → factor.2.natAbs ≤ 4096) {candidate : Prefix}
    (fits : candidate = Prefix.empty ∨
      candidate ∈ Prefix.all ∧ ∃ first rest, factors = first :: rest ∧ first.1 ≠ .mass) :
    ∃ terms : List Term,
      candidate.symbol.toList ++ (Dimension.halfText factors).toList = halfText terms ∧
      dimensionOf terms = sumOf factors ∧
      factorOf terms = (10 : Rat) ^ (candidate.exponent * leadingPower factors) ∧
      terms.length = factors.length ∧ (∀ term, term ∈ terms → term.InLetters) ∧
      (∀ term, term ∈ terms.tail → term.name ≠ ['a', 's']) ∧
      (candidate = Prefix.empty → ∀ term, term ∈ terms → term.name ≠ ['a', 's']) := by
  cases factors with
  | nil =>
      rcases fits with rfl | ⟨_, first, rest, impossible, _⟩
      · exact ⟨[], rfl, rfl, rfl, rfl, List.forall_mem_nil _, List.forall_mem_nil _,
          fun _ => List.forall_mem_nil _⟩
      · cases impossible
  | cons first rest =>
      have fitsFirst : candidate = Prefix.empty ∨ candidate ∈ Prefix.all ∧ first.1 ≠ .mass := by
        refine fits.imp_right fun ⟨member, other, later, same, noMass⟩ => ⟨member, ?_⟩
        rw [(List.cons.inj same).1]
        exact noMass
      have power : ((first.2.natAbs : Int)).natAbs ≤ 4096 := moderate first List.mem_cons_self
      obtain ⟨term, text, dimension, multiple, inLetters, noMarker⟩ := exists_base_term power fitsFirst
      obtain ⟨terms, texts, dimensions, factorIsOne, letters⟩ :=
        exists_base_terms fun other member => moderate other (List.mem_cons_of_mem _ member)
      refine ⟨term :: terms, ?_, ?_, ?_, ?_, ?_, fun other member => (letters other member).2, fun isEmpty => ?_⟩
      · rw [toList_halfText, List.map_cons, append_intercalate, halfText, List.map_cons, texts, text]
      · rw [dimensionOf_cons, sumOf_cons, dimension, dimensions]
      · rw [factorOf_cons, multiple, factorIsOne, mul_one]
        rfl
      · have sameLength := congrArg List.length texts
        rw [List.length_map, List.length_map] at sameLength
        rw [List.length_cons, List.length_cons, sameLength]
      · exact List.forall_mem_cons.mpr ⟨inLetters, fun other member => (letters other member).1⟩
      · exact List.forall_mem_cons.mpr ⟨noMarker isEmpty, fun other member => (letters other member).2⟩

private theorem length_half_le (dimension : Dimension) (keep : BaseQuantity × Int → Bool) :
    (dimension.factors.filter keep).length ≤ 50 := by
  have halves := List.length_filter_le keep dimension.factors
  have all : dimension.factors.length ≤ BaseQuantity.all.length := by
    refine Nat.le_trans (List.length_filter_le _ _) ?_
    rw [List.length_map]
  have few : BaseQuantity.all.length ≤ 50 := by decide
  omega

private theorem spells_baseText {dimension : Dimension} {front : String} {numerator denominator : List Term}
    (above : front.toList ++
      (Dimension.halfText (dimension.factors.filter fun factor => 0 < factor.2)).toList = halfText numerator)
    (below : (Dimension.halfText (dimension.factors.filter fun factor => factor.2 < 0)).toList =
      halfText denominator)
    (countAbove : numerator.length = (dimension.factors.filter fun factor => 0 < factor.2).length)
    (countBelow : denominator.length = (dimension.factors.filter fun factor => factor.2 < 0).length) :
    Spells numerator denominator (front ++ dimension.baseText).toList := by
  unfold Dimension.baseText
  dsimp only
  generalize (dimension.factors.filter fun factor => 0 < factor.2) = upper at above countAbove ⊢
  generalize (dimension.factors.filter fun factor => factor.2 < 0) = lower at below countBelow ⊢
  have noTerms : ∀ {terms : List Term}, terms.length = 0 → terms = [] := List.eq_nil_of_length_eq_zero
  cases upper with
  | nil =>
      obtain rfl := noTerms countAbove
      have noFront : front.toList = [] := (List.append_eq_nil_iff.mp above).1
      cases lower with
      | nil =>
          obtain rfl := noTerms countBelow
          have text : (front ++ "").toList = halfText [] := by
            rw [String.append_empty, noFront]
            rfl
          exact text ▸ Spells.whole []
      | cons factor rest =>
          have text : (front ++ ("1 / " ++ Dimension.halfText (factor :: rest))).toList =
              "1 / ".toList ++ halfText denominator := by
            rw [String.toList_append, noFront, String.toList_append, below, List.nil_append]
          exact text ▸ Spells.inverse denominator
  | cons first others =>
      cases lower with
      | nil =>
          obtain rfl := noTerms countBelow
          have text : (front ++ Dimension.halfText (first :: others)).toList = halfText numerator := by
            rw [String.toList_append, above]
          exact text ▸ Spells.whole numerator
      | cons factor rest =>
          have text : (front ++ (Dimension.halfText (first :: others) ++ " / " ++
              Dimension.halfText (factor :: rest))).toList =
                halfText numerator ++ (" / ".toList ++ halfText denominator) := by
            rw [String.toList_append, String.toList_append, String.toList_append, below, ← above,
              List.append_assoc, List.append_assoc]
          have nonempty : ∀ {terms : List Term} {factor : BaseQuantity × Int} {factors},
              terms.length = (factor :: factors).length → terms ≠ [] := by
            rintro terms factor factors count rfl
            cases count
          exact text ▸ Spells.quotient (nonempty countAbove) (nonempty countBelow)

/-- A dimension is spelled in its base units, with a prefix as well if these do not start with a kilogram. -/
theorem presents_baseText {dimension : Dimension} (small : ∀ base, (dimension.exponent base).natAbs ≤ 4096)
    {candidate : Prefix} (fits : candidate = Prefix.empty ∨ candidate ∈ Prefix.all ∧
      ∃ first rest, (dimension.factors.filter fun factor => 0 < factor.2) = first :: rest ∧ first.1 ≠ .mass) :
    ∃ numerator denominator, Presents dimension
      ((10 : Rat) ^ (candidate.exponent * leadingPower (dimension.factors.filter fun factor => 0 < factor.2)))
      numerator denominator (candidate.symbol ++ dimension.baseText).toList := by
  have moderate : ∀ factor, factor ∈ dimension.factors → factor.2.natAbs ≤ 4096 := by
    intro factor member
    obtain ⟨base, _, rfl⟩ := List.mem_map.mp (List.mem_filter.mp member).1
    exact small base
  obtain ⟨numerator, textAbove, above, multiple, countAbove, lettersAbove, noMarkerAbove, _⟩ := exists_numerator
    (fun factor member => moderate factor (List.mem_filter.mp member).1) fits
  have noPrefix : Prefix.empty = Prefix.empty ∨ Prefix.empty ∈ Prefix.all ∧ ∃ first rest,
      (dimension.factors.filter fun factor => factor.2 < 0) = first :: rest ∧ first.1 ≠ .mass := Or.inl rfl
  obtain ⟨denominator, textBelow, below, one, countBelow, lettersBelow, _, noMarkerBelow⟩ := exists_numerator
    (fun factor member => moderate factor (List.mem_filter.mp member).1) noPrefix
  have fewAbove := length_half_le dimension fun factor => 0 < factor.2
  have fewBelow := length_half_le dimension fun factor => factor.2 < 0
  refine ⟨numerator, denominator, spells_baseText textAbove textBelow countAbove countBelow, by omega, by omega,
    ?_, ?_, ?_, ?_⟩
  · rw [above, below, sum_factors]
  · rw [multiple, one]
    simp [Prefix.empty]
  · exact fun term member => (List.mem_append.mp member).elim (lettersAbove term) (lettersBelow term)
  · exact fun term member => (List.mem_append.mp member).elim (noMarkerAbove term) (noMarkerBelow rfl term)

private theorem read_baseText {dimension : Dimension} (small : ∀ base, (dimension.exponent base).natAbs ≤ 4096)
    {candidate : Prefix} (fits : candidate = Prefix.empty ∨ candidate ∈ Prefix.all ∧
      ∃ first rest, (dimension.factors.filter fun factor => 0 < factor.2) = first :: rest ∧ first.1 ≠ .mass) :
    Measure.read (candidate.symbol ++ dimension.baseText).toList =
      .ok { dimension
            factor := .exact ((10 : Rat) ^ (candidate.exponent *
              leadingPower (dimension.factors.filter fun factor => 0 < factor.2))) } := by
  obtain ⟨numerator, denominator, presents⟩ := presents_baseText small fits
  exact presents.read

private theorem baseSpelling_name {dimension : Dimension} {base : BaseQuantity} {power : Int}
    (found : (dimension.factors.find? fun factor => 0 < factor.2) = some (base, power)) :
    (baseSpelling dimension).name =
      { text := dimension.baseText
        prefixPower := power
        barred := if base = .mass then Prefix.symbols else [] } := by
  simp only [baseSpelling, found]
  cases base <;> rfl

private theorem baseSpelling_name_none {dimension : Dimension}
    (found : (dimension.factors.find? fun factor => 0 < factor.2) = none) :
    (baseSpelling dimension).name =
      { text := dimension.baseText, prefixPower := 0, barred := Prefix.symbols } := by
  simp only [baseSpelling, found]

private theorem baseSpelling_spelled {dimension : Dimension}
    (small : ∀ base, (dimension.exponent base).natAbs ≤ 4096) :
    (baseSpelling dimension).name.Spelled dimension := by
  intro candidate allowed
  have head : (dimension.factors.filter fun factor => 0 < factor.2).head? =
      dimension.factors.find? fun factor => 0 < factor.2 := List.head?_filter
  cases found : dimension.factors.find? fun factor => 0 < factor.2 with
  | none =>
      rw [baseSpelling_name_none found] at allowed ⊢
      have noPrefix : candidate = Prefix.empty := by
        rcases allowed with isEmpty | ⟨_, allows⟩
        · exact isEmpty
        · have nonzero := (Bool.and_eq_true_iff.mp (Bool.and_eq_true_iff.mp allows).1).2
          cases nonzero
      subst noPrefix
      obtain ⟨numerator, denominator, presents⟩ := presents_baseText small (Or.inl rfl)
      have noPower : Prefix.empty.exponent = 0 := rfl
      rw [noPower, zero_mul] at presents ⊢
      exact ⟨numerator, denominator, presents⟩
  | some factor =>
      obtain ⟨base, power⟩ := factor
      rw [baseSpelling_name found] at allowed ⊢
      rw [found] at head
      obtain ⟨rest, upper⟩ := List.head?_eq_some_iff.mp head
      have isPositive := List.find?_some found
      have positive : 0 < power := of_decide_eq_true isPositive
      have fits : candidate = Prefix.empty ∨ candidate ∈ Prefix.all ∧ ∃ first rest,
          (dimension.factors.filter fun factor => 0 < factor.2) = first :: rest ∧ first.1 ≠ .mass := by
        refine allowed.imp_right fun ⟨member, allows⟩ => ⟨member, (base, power), rest, upper, ?_⟩
        intro isMass
        have notBarred := (Bool.and_eq_true_iff.mp allows).2
        have barred : (Prefix.symbols).contains candidate.symbol = true :=
          List.contains_iff_mem.mpr (List.mem_map_of_mem member)
        have mass : base = .mass := isMass
        rw [if_pos mass, barred] at notBarred
        cases notBarred
      have size : leadingPower (dimension.factors.filter fun factor => 0 < factor.2) = power := by
        rw [upper]
        exact Int.natAbs_of_nonneg positive.le
      rw [← size]
      exact presents_baseText small fits

/-! ### All spellings -/

private theorem productSpellings_spelled {dimension : Dimension} {entries : List Catalog.Entry}
    (naming : ∀ entry, entry ∈ entries → entry ∈ Catalog.standard.namingEntries) {spelling : Spelling}
    (member : spelling ∈ productSpellings dimension entries) : spelling.name.Spelled dimension := by
  induction entries with
  | nil => cases member
  | cons first later ih =>
      rcases List.mem_append.mp member with withFirst | withoutFirst
      · obtain ⟨second, inLater, rfl⟩ := List.mem_map.mp withFirst
        obtain ⟨isLater, made⟩ := List.mem_filter.mp inLater
        exact product_spelled (naming first List.mem_cons_self)
          (naming second (List.mem_cons_of_mem _ isLater)) (of_decide_eq_true made)
      · exact ih (fun entry isLater => naming entry (List.mem_cons_of_mem _ isLater)) withoutFirst

private theorem quotientSpellings_spelled {dimension : Dimension} {spelling : Spelling}
    (member : spelling ∈ quotientSpellings dimension Catalog.standard.namingEntries) :
    spelling.name.Spelled dimension := by
  obtain ⟨numerator, numeratorNaming, inner⟩ := List.mem_flatMap.mp member
  obtain ⟨denominator, found, rfl⟩ := List.mem_map.mp inner
  obtain ⟨denominatorNaming, made⟩ := List.mem_filter.mp found
  exact quotient_spelled numeratorNaming denominatorNaming (of_decide_eq_true made)

private theorem spellings_spelled {dimension : Dimension} (small : ∀ base, (dimension.exponent base).natAbs ≤ 4096)
    {spelling : Spelling} (member : spelling ∈ spellings dimension) : spelling.name.Spelled dimension := by
  rcases List.mem_cons.mp member with isBase | others
  · rw [isBase]
    exact baseSpelling_spelled small
  · rcases List.mem_append.mp others with powersOrProducts | quotients
    · rcases List.mem_append.mp powersOrProducts with powers | products
      · obtain ⟨entry, naming, found⟩ := List.mem_filterMap.mp powers
        exact powerSpelling_spelled small naming found
      · exact productSpellings_spelled (fun entry naming => naming) products
    · exact quotientSpellings_spelled quotients

/-- The lightest spelling is one of those compared. -/
theorem lightest_mem (best : Spelling) (others : List Spelling) :
    lightest best others = best ∨ lightest best others ∈ others := by
  induction others generalizing best with
  | nil => exact Or.inl rfl
  | cons next rest ih =>
      unfold lightest
      rcases ih (if next.weight < best.weight then next else best) with chosen | later
      · rw [chosen]
        split
        · exact Or.inr List.mem_cons_self
        · exact Or.inl rfl
      · exact Or.inr (List.mem_cons_of_mem _ later)

private theorem composed_spelled {dimension : Dimension} (small : ∀ base, (dimension.exponent base).natAbs ≤ 4096) :
    (composed dimension).Spelled dimension := by
  unfold composed
  split
  · rename_i isOne
    rw [Dimension.isOne_iff] at isOne
    intro candidate allowed
    rcases allowed with rfl | ⟨_, allows⟩
    · refine ⟨[], [], Spells.whole [], Nat.zero_le _, Nat.zero_le _, ?_, ?_, List.forall_mem_nil _,
        List.forall_mem_nil _⟩
      · rw [isOne]
        exact sub_zero 0
      · simp [Prefix.empty]
    · cases (Bool.and_eq_true_iff.mp (Bool.and_eq_true_iff.mp allows).1).1
  · rcases lightest_mem (baseSpelling dimension) (spellings dimension) with isBase | member
    · rw [isBase]
      exact baseSpelling_spelled small
    · exact spellings_spelled small member

/-- What is registered for a dimension is a name of its unit. -/
theorem registered_spelled {dimension : Dimension} {entry : Catalog.Entry} {text : String}
    (found : Catalog.standard.entryOf? (Measure.coherent dimension) = some entry)
    (named : entry.name = some text) :
    Spelled dimension { text, prefixPower := 1, barred := entry.barred } := by
  obtain ⟨naming, isDimension⟩ := Catalog.mem_namingEntries_of_entryOf? found named
  change entry.measure.dimension = dimension at isDimension
  have labelled : label entry = text := by
    rw [label, named]
    rfl
  intro candidate allowed
  have takes : entry.Takes candidate := takes_of_allows rfl allowed
  have written : (candidate.symbol ++ text).toList = halfText [single naming takes] := by
    rw [halfText_one, single_text, labelled, String.toList_append]
  refine ⟨[single naming takes], [], written ▸ Spells.whole _, Nat.le_of_ble_eq_true rfl, Nat.zero_le _, ?_, ?_, ?_,
    List.forall_mem_nil _⟩
  · rw [dimensionOf_cons, single_dimension, dimensionOf_nil, add_zero, sub_zero, isDimension]
  · simp [single, term]
  · exact List.forall_mem_singleton.mpr (term_inLetters naming takes _ _)

end UnitName

namespace Dimension

theorem unitName_spelled {dimension : Dimension} (small : ∀ base, (dimension.exponent base).natAbs ≤ 4096) :
    dimension.unitName.Spelled dimension := by
  unfold unitName
  split
  · rename_i entry found
    split
    · rename_i text named
      exact UnitName.registered_spelled found named
    · exact UnitName.composed_spelled small
  · exact UnitName.composed_spelled small

private theorem unitName_reads {dimension : Dimension} (small : ∀ base, (dimension.exponent base).natAbs ≤ 4096) :
    dimension.unitName.Reads dimension :=
  (unitName_spelled small).reads

/-- The name of a dimension is read as its unit, whatever prefix it takes, and so are its base units. -/
theorem read_unitName {dimension : Dimension} (small : ∀ base, (dimension.exponent base).natAbs ≤ 4096) :
    (∀ candidate, candidate = Prefix.empty ∨
        candidate ∈ Prefix.all ∧ dimension.unitName.allows candidate.symbol = true →
      Measure.read (candidate.symbol ++ dimension.unitName.text).toList =
        .ok { dimension
              factor := .exact ((10 : Rat) ^ (candidate.exponent * dimension.unitName.prefixPower)) }) ∧
      Measure.read dimension.baseText.toList = .ok (Measure.coherent dimension) := by
  refine ⟨unitName_reads small, ?_⟩
  have read := UnitName.read_baseText small (Or.inl rfl)
  have text : (Prefix.empty.symbol ++ dimension.baseText).toList = dimension.baseText.toList :=
    congrArg String.toList String.empty_append
  have noPrefix : Prefix.empty.exponent = 0 := rfl
  rw [text, noPrefix, zero_mul, zpow_zero] at read
  exact read

theorem read_unitName_force :
    Measure.read "kN".toList =
        .ok { dimension := ofBases [.mass, .length] [.time, .time], factor := .exact 1000 } ∧
      Measure.read "kg m / s²".toList = .ok (Measure.coherent (ofBases [.mass, .length] [.time, .time])) := by
  have small : ∀ base, ((ofBases [.mass, .length] [.time, .time]).exponent base).natAbs ≤ 4096 := by
    intro base
    cases base <;> decide
  have name : (ofBases [.mass, .length] [.time, .time]).unitName =
      { text := "N", prefixPower := 1, barred := [] } := by decide +kernel
  have text : (ofBases [.mass, .length] [.time, .time]).baseText = "kg m / s²" := by decide +kernel
  obtain ⟨read, readBase⟩ := read_unitName small
  rw [name] at read
  rw [text] at readBase
  have kilo := read { symbol := "k", exponent := 3 } (Or.inr ⟨by decide, by decide⟩)
  have thousand : (10 : Rat) ^ ((3 : Int) * 1) = 1000 := by norm_num
  rw [thousand] at kilo
  exact ⟨kilo, readBase⟩

end Dimension

end QuantityCalculator
