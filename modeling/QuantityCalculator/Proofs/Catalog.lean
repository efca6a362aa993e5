import QuantityCalculator.Measure.Reading
import QuantityCalculator.Proofs.Catalog.Registration
import QuantityCalculator.Proofs.Dimension
import QuantityCalculator.Proofs.Text
import QuantityCalculator.Token.Spans
import QuantityCalculator.UnitName

/-!
The names of the standard catalogue.

Names that can spell a dimension are read as their units, and with a prefix that they take as that multiple
of them.  With a prefix in front, such a name is never another name, and no other prefix is tried first.
-/

namespace QuantityCalculator

open UnitName (label)
open Text (isNamePart)

namespace Catalog

variable {catalog : Catalog} {entry : Entry}

theorem standard_indexed : Catalog.standard.Indexed :=
  registerAll_indexed empty_indexed Standard.registrations

/-- A registered unit with a name can spell its dimension. -/
theorem mem_namingEntries_of_entryOf? {measure : Measure} {text : String}
    (found : Catalog.standard.entryOf? measure = some entry) (named : entry.name = some text) :
    entry ∈ Catalog.standard.namingEntries ∧ entry.measure.dimension = measure.dimension := by
  obtain ⟨member, notDerived, same⟩ := standard_indexed.entryOf?_eq_some_iff.mp found
  refine ⟨List.mem_filter.mpr ⟨member, ?_⟩, of_decide_eq_true (Bool.and_eq_true_iff.mp same).1⟩
  rw [named, notDerived]
  rfl

private theorem name_of_mem_namingEntries (naming : entry ∈ catalog.namingEntries) :
    entry ∈ catalog.entries ∧ entry.name = some (label entry) := by
  obtain ⟨member, hasName⟩ := List.mem_filter.mp naming
  obtain ⟨name, named⟩ := Option.isSome_iff_exists.mp (Bool.and_eq_true_iff.mp hasName).1
  refine ⟨member, ?_⟩
  rw [label, named]
  rfl

/-! ### The standard names -/

def spellingNames : List (List Char) :=
  ["A", "kg", "m", "s", "K", "mol", "cd", "N", "J", "Pa", "W", "C", "V", "F", "Ω", "S", "Wb", "T", "H", "Hz",
    "lux", "Gy", "kat"].map String.toList

def derivedNames : List (List Char) :=
  ["lm", "Bq", "Sv", "g", "erg", "l", "ha", "bar", "atm", "mmHg", "inHg", "Torr", "min", "h", "d", "kph", "deg",
    "'", "\"", "cal", "eV", "Ci", "rad", "R", "in", "ft", "yd", "mi", "NM", "mph", "ac", "lb", "lbf", "ftlb",
    "psi", "gal", "floz"].map String.toList

/-! ### What is checked name by name -/

/-- What has to hold of a catalogue with the standard names for these to be read back. -/
class Readable (catalog : Catalog) : Prop where
  names : ∀ name, name ∈ catalog.names → name.toList ∈ spellingNames ++ derivedNames
  labels : ∀ entry, entry ∈ catalog.namingEntries → (label entry).toList ∈ spellingNames
  exponents : ∀ entry, entry ∈ catalog.namingEntries →
    ∀ base, base ∈ BaseQuantity.all → (entry.measure.dimension.exponent base).natAbs ≤ 4
  bases : ∀ base, base ∈ BaseQuantity.all → ∃ entry, entry ∈ catalog.namingEntries ∧
    label entry = base.symbol ∧ entry.measure.dimension = Dimension.ofBase base ∧
      (base ≠ .mass → entry.barred = [])
  /-- No name is a prefix followed by a name that can spell a dimension. -/
  unprefixed : ∀ name, name ∈ spellingNames ++ derivedNames → ∀ candidate, candidate ∈ Prefix.all →
    ∀ rest, rest ∈ candidate.symbol.toList.isPrefixOf? name → rest ∉ spellingNames
  /-- In front of a name that can spell a dimension, each prefix is the first one that fits. -/
  prefixed : ∀ name, name ∈ spellingNames → ∀ candidate, candidate ∈ Prefix.all →
    Prefix.all.find? (fun other =>
      (other.symbol.toList.isPrefixOf? (candidate.symbol.toList ++ name)).isSome) = some candidate
  plain : ∀ name, name ∈ spellingNames → name ≠ [] ∧ name.all isNamePart = true
  symbols : ∀ candidate, candidate ∈ Prefix.all → candidate.symbol.toList.all isNamePart = true

instance (catalog : Catalog) : Decidable catalog.Readable :=
  decidable_of_iff (_ ∧ _ ∧ _ ∧ _ ∧ _ ∧ _ ∧ _ ∧ _)
    ⟨fun ⟨names, labels, exponents, bases, unprefixed, prefixed, plain, symbols⟩ =>
      ⟨names, labels, exponents, bases, unprefixed, prefixed, plain, symbols⟩,
    fun readable => ⟨readable.names, readable.labels, readable.exponents,
      readable.bases, readable.unprefixed, readable.prefixed, readable.plain, readable.symbols⟩⟩

instance standard_readable : Catalog.standard.Readable := by
  decide +kernel

def Entry.Takes (entry : Entry) (candidate : Prefix) : Prop :=
  candidate = Prefix.empty ∨ candidate ∈ Prefix.all ∧ entry.allows candidate.symbol = true

/-! ### Reading names -/

theorem isPrefixOf?_append (front back : List Char) : front.isPrefixOf? (front ++ back) = some back := by
  induction front with
  | nil => rfl
  | cons c rest ih => simp only [List.cons_append, List.isPrefixOf?, beq_self_eq_true, if_true, ih]

private theorem lookup?_label (naming : entry ∈ Catalog.standard.namingEntries) :
    Catalog.standard.lookup? (label entry) = some entry :=
  standard_indexed.lookup?_eq_some_iff.mpr (name_of_mem_namingEntries naming)

private theorem factor_eq_one (naming : entry ∈ Catalog.standard.namingEntries) :
    entry.measure.factor = .exact 1 :=
  (standard_indexed.sound.naming entry naming).2

private theorem lookup?_prefixed (naming : entry ∈ Catalog.standard.namingEntries) {candidate : Prefix}
    (member : candidate ∈ Prefix.all) :
    Catalog.standard.lookup? (String.ofList (candidate.symbol.toList ++ (label entry).toList)) = none := by
  refine standard_indexed.lookup?_eq_none_iff.mpr fun used => ?_
  have isListed := standard_readable.names _ used
  rw [String.toList_ofList] at isListed
  exact standard_readable.unprefixed _ isListed candidate member _ (isPrefixOf?_append _ _)
    (standard_readable.labels entry naming)

/-- A name is read as its unit, and with a prefix as the multiple that the prefix stands for. -/
theorem read_name (naming : entry ∈ Catalog.standard.namingEntries) {candidate : Prefix}
    (takes : entry.Takes candidate) :
    Measure.ofName (candidate.symbol.toList ++ (label entry).toList) =
      .ok { dimension := entry.measure.dimension, factor := .exact ((10 : Rat) ^ candidate.exponent) } := by
  rcases takes with isEmpty | ⟨member, allowed⟩
  · have noSymbol : candidate.symbol.toList = [] := by
      rw [isEmpty]
      rfl
    have noPower : (10 : Rat) ^ candidate.exponent = 1 := by
      rw [isEmpty]
      exact zpow_zero 10
    have found := lookup?_label naming
    rw [noSymbol, noPower, List.nil_append, ← factor_eq_one naming]
    unfold Measure.ofName
    rw [String.ofList_toList, found]
  · have first := standard_readable.prefixed _ (standard_readable.labels entry naming) candidate member
    obtain ⟨fits, before, after, all, noneBefore⟩ := List.find?_eq_some_iff_append.mp first
    have atCandidate : Measure.prefixed? (candidate.symbol.toList ++ (label entry).toList) candidate =
        some { dimension := entry.measure.dimension
               factor := Number.ofPowerOfTen candidate.exponent * entry.measure.factor } := by
      simp only [Measure.prefixed?, isPrefixOf?_append, String.ofList_toList, lookup?_label naming, allowed, bind,
        Option.bind, if_true]
    have passed : before.findSome? (Measure.prefixed? (candidate.symbol.toList ++ (label entry).toList)) =
        none := by
      refine List.findSome?_eq_none_iff.mpr fun other isBefore => ?_
      have noFit := noneBefore other isBefore
      rw [Bool.not_eq_true', Option.isSome_eq_false_iff, Option.isNone_iff_eq_none] at noFit
      rw [Measure.prefixed?, noFit]
      rfl
    have product : Number.ofPowerOfTen candidate.exponent * entry.measure.factor =
        .exact ((10 : Rat) ^ candidate.exponent) := by
      rw [factor_eq_one naming]
      exact congrArg Number.exact (mul_one _)
    unfold Measure.ofName
    rw [lookup?_prefixed naming member, all, List.findSome?_append, passed, List.findSome?_cons, atCandidate, product]
    rfl

theorem name_plain (naming : entry ∈ Catalog.standard.namingEntries) {candidate : Prefix}
    (takes : entry.Takes candidate) :
    ∀ c, c ∈ candidate.symbol.toList ++ (label entry).toList → isNamePart c = true := by
  intro c member
  rcases List.mem_append.mp member with inSymbol | inLabel
  · rcases takes with isEmpty | ⟨isPrefix, _⟩
    · rw [isEmpty] at inSymbol
      cases inSymbol
    · exact List.all_eq_true.mp (standard_readable.symbols candidate isPrefix) c inSymbol
  · exact List.all_eq_true.mp (standard_readable.plain _ (standard_readable.labels entry naming)).2 c inLabel

/-- Names that can spell a dimension are written in letters, and none is the word that introduces a display
unit. -/
theorem spellingNames_letters :
    ∀ name, name ∈ spellingNames → name.all Token.isLetter = true ∧ name ≠ ['a', 's'] := by
  decide +kernel

private theorem symbol_letters {candidate : Prefix} (member : candidate ∈ Prefix.all) :
    ∀ c, c ∈ candidate.symbol.toList → Token.isLetter c = true := by
  have each : (Prefix.all.all fun candidate => candidate.symbol.toList.all Token.isLetter) = true := by
    decide +kernel
  exact List.all_eq_true.mp (List.all_eq_true.mp each candidate member)

theorem name_letters (naming : entry ∈ Catalog.standard.namingEntries) {candidate : Prefix}
    (takes : entry.Takes candidate) :
    ∀ c, c ∈ candidate.symbol.toList ++ (label entry).toList → Token.isLetter c = true := by
  intro c member
  rcases List.mem_append.mp member with inSymbol | inLabel
  · rcases takes with isEmpty | ⟨isPrefix, _⟩
    · rw [isEmpty] at inSymbol
      cases inSymbol
    · exact symbol_letters isPrefix c inSymbol
  · have letters := (spellingNames_letters _ (standard_readable.labels entry naming)).1
    exact List.all_eq_true.mp letters c inLabel

theorem label_ne_marker (naming : entry ∈ Catalog.standard.namingEntries) :
    (label entry).toList ≠ ['a', 's'] :=
  (spellingNames_letters _ (standard_readable.labels entry naming)).2

theorem label_ne_nil (naming : entry ∈ Catalog.standard.namingEntries) : (label entry).toList ≠ [] :=
  (standard_readable.plain _ (standard_readable.labels entry naming)).1

theorem exponent_le (naming : entry ∈ Catalog.standard.namingEntries) (base : BaseQuantity) :
    (entry.measure.dimension.exponent base).natAbs ≤ 4 :=
  standard_readable.exponents entry naming base (Dimension.mem_all base)

/-- The units of the base quantities are named. -/
theorem exists_entry (base : BaseQuantity) : ∃ entry, entry ∈ Catalog.standard.namingEntries ∧
    label entry = base.symbol ∧ entry.measure.dimension = Dimension.ofBase base ∧
      (base ≠ .mass → entry.barred = []) :=
  standard_readable.bases base (Dimension.mem_all base)

end Catalog

end QuantityCalculator
