import QuantityCalculator.Measure.Reading
import QuantityCalculator.Proofs.Measure.Product
import QuantityCalculator.Token.Spans

/-!
Written units are read back.

A unit is spelled by the terms of its numerator and its denominator.  Reading the spelling multiplies and
divides the units of these terms.
-/

namespace QuantityCalculator.Measure

open Text (isNamePart isBlank)

/-! ### Terms -/

/-- A power of a unit with a name that can be read.  The exponents that it contributes are small enough for
terms to be multiplied. -/
structure Term where
  name : List Char
  power : Int
  dimension : Dimension
  factor : Rat
  nonempty : name ≠ []
  plain : ∀ c, c ∈ name → isNamePart c = true
  named : ofName name = .ok { dimension, factor := .exact factor }
  nonzero : factor ≠ 0
  moderate : power.natAbs ≤ 4096
  small : ∀ base, (power * dimension.exponent base).natAbs ≤ 4096

namespace Term

def text (term : Term) : List Char :=
  term.name ++ (Text.raisedPower term.power).toList

def dimensionOf (terms : List Term) : Dimension :=
  (terms.map fun term => term.power • term.dimension).sum

def factorOf (terms : List Term) : Rat :=
  (terms.map fun term => term.factor ^ term.power).prod

@[simp] theorem dimensionOf_nil : dimensionOf [] = 0 :=
  rfl

@[simp] theorem dimensionOf_cons (term : Term) (rest : List Term) :
    dimensionOf (term :: rest) = term.power • term.dimension + dimensionOf rest := by
  rw [dimensionOf, List.map_cons, List.sum_cons]
  rfl

@[simp] theorem factorOf_nil : factorOf [] = 1 :=
  rfl

@[simp] theorem factorOf_cons (term : Term) (rest : List Term) :
    factorOf (term :: rest) = term.factor ^ term.power * factorOf rest := by
  rw [factorOf, List.map_cons, List.prod_cons]
  rfl

def toFactor (term : Term) : Factor where
  name := term.name
  power := term.power
  dimension := term.dimension
  factor := term.factor
  named := term.named
  moderate := term.moderate

private theorem dimensionOf_toFactor (terms : List Term) : Factor.dimensionOf
    (terms.map toFactor) = dimensionOf terms := by
  rw [Factor.dimensionOf, List.map_map]
  rfl

private theorem magnitudeOf_toFactor (terms : List Term) : Factor.magnitudeOf
    (terms.map toFactor) = factorOf terms := by
  rw [Factor.magnitudeOf, List.map_map]
  rfl

private theorem extent_toFactor_le (base : BaseQuantity) (terms : List Term) :
    Factor.extent base (terms.map toFactor) ≤ 4096 * terms.length := by
  induction terms with
  | nil => exact Nat.zero_le _
  | cons term rest ih =>
      have small : (term.toFactor.power * term.toFactor.dimension.exponent base).natAbs ≤ 4096 := term.small base
      rw [List.map_cons, Factor.extent_cons, List.length_cons]
      omega

private theorem writes_text (term : Term) : term.toFactor.Writes term.text :=
  Factor.Writes.word (writesPower_raisedPower term.power)

theorem text_plain (term : Term) {c : Char} (member : c ∈ term.text) : isBlank c = false ∧ c ≠ '/' :=
  term.writes_text.plain.2.2 c member

theorem text_ne_nil (term : Term) : term.text ≠ [] :=
  term.writes_text.plain.1

def InLetters (term : Term) : Prop :=
  ∀ c, c ∈ term.name → Token.isLetter c = true

end Term

/-! ### Halves -/

open Term (dimensionOf factorOf)

def halfText (terms : List Term) : List Char :=
  [' '].intercalate (terms.map Term.text)

theorem halfText_one (term : Term) : halfText [term] = term.text :=
  List.intercalate_singleton

theorem halfText_cons_cons (term second : Term) (rest : List Term) :
    halfText (term :: second :: rest) = term.text ++ ' ' :: halfText (second :: rest) := by
  unfold halfText
  rw [List.map_cons, List.map_cons, List.intercalate_cons_cons, List.append_assoc]
  rfl

theorem mem_halfText {terms : List Term} {c : Char} (member : c ∈ halfText terms) :
    c = ' ' ∨ ∃ term, term ∈ terms ∧ c ∈ term.text := by
  induction terms with
  | nil => cases member
  | cons first rest ih =>
      cases rest with
      | nil =>
          rw [halfText_one] at member
          exact Or.inr ⟨first, List.mem_cons_self, member⟩
      | cons second others =>
          rw [halfText_cons_cons] at member
          rcases List.mem_append.mp member with inTerm | later
          · exact Or.inr ⟨first, List.mem_cons_self, inTerm⟩
          · rcases List.mem_cons.mp later with isBlank | inRest
            · exact Or.inl isBlank
            · refine (ih inRest).imp_right fun ⟨term, inOthers, inText⟩ => ?_
              exact ⟨term, List.mem_cons_of_mem _ inOthers, inText⟩

private theorem forall₂_writes (terms : List Term) :
    List.Forall₂ Factor.Writes (terms.map Term.toFactor) (terms.map Term.text) :=
  List.forall₂_map_left_iff.mpr (List.forall₂_map_right_iff.mpr (List.forall₂_same.mpr fun term _ => term.writes_text))

/-! ### Units -/

/-- The ways to write a quotient of terms.  Without a numerator a one stands in its place, unless there is
no denominator either. -/
inductive Spells : List Term → List Term → List Char → Prop where
  | whole (numerator : List Term) : Spells numerator [] (halfText numerator)
  | inverse (denominator : List Term) : Spells [] denominator ("1 / ".toList ++ halfText denominator)
  | quotient {numerator denominator : List Term} (above : numerator ≠ []) (below : denominator ≠ []) :
      Spells numerator denominator (halfText numerator ++ (" / ".toList ++ halfText denominator))

theorem Spells.writes {numerator denominator : List Term} {text : List Char}
    (spells : Spells numerator denominator text) :
    Writes (numerator.map Term.toFactor) (denominator.map Term.toFactor) text := by
  have blank : isBlank ' ' = true := rfl
  have spaced : ∀ terms : List Term, Text.Spaced (terms.map Term.text) (halfText terms) :=
    fun terms => Text.spaced_intercalate (terms.map Term.text)
  cases spells with
  | whole => exact Writes.product (WritesHalf.factors (forall₂_writes numerator) (spaced numerator))
  | inverse =>
      have one : Text.Spaced [['1']] (['1'] ++ [' ']) := (Text.spaced_intercalate [['1']]).append_blank blank
      exact Writes.quotient (WritesHalf.one one)
        (WritesHalf.factors (forall₂_writes denominator) ((spaced denominator).cons_blank blank))
  | quotient =>
      have split : halfText numerator ++ (" / ".toList ++ halfText denominator) =
          (halfText numerator ++ [' ']) ++ '/' :: ' ' :: halfText denominator := by
        rw [List.append_assoc]
        rfl
      rw [split]
      exact Writes.quotient (WritesHalf.factors (forall₂_writes numerator) ((spaced numerator).append_blank blank))
        (WritesHalf.factors (forall₂_writes denominator) ((spaced denominator).cons_blank blank))

/-- A written quotient of terms is read as what it stands for. -/
theorem read_of_spells {numerator denominator : List Term} {text : List Char}
    (spells : Spells numerator denominator text) (fewAbove : numerator.length ≤ 50)
    (fewBelow : denominator.length ≤ 50) :
    read text = .ok { dimension := dimensionOf numerator - dimensionOf denominator
                      factor := .exact (factorOf numerator / factorOf denominator) } := by
  have fits : ∀ base, Factor.extent base (numerator.map Term.toFactor) +
      Factor.extent base (denominator.map Term.toFactor) ≤ 2147483647 := by
    intro base
    have above := Term.extent_toFactor_le base numerator
    have below := Term.extent_toFactor_le base denominator
    omega
  rw [read_of_writes spells.writes fits, Term.dimensionOf_toFactor, Term.dimensionOf_toFactor,
    Term.magnitudeOf_toFactor, Term.magnitudeOf_toFactor]

/-- A text of a unit that is a multiple of the coherent one: a quotient of few terms in letters, of which only
the first can be the word that introduces a display unit. -/
structure Presents (dimension : Dimension) (factor : Rat) (numerator denominator : List Term)
    (text : List Char) : Prop where
  spells : Spells numerator denominator text
  fewAbove : numerator.length ≤ 50
  fewBelow : denominator.length ≤ 50
  isDimension : dimensionOf numerator - dimensionOf denominator = dimension
  isFactor : factorOf numerator / factorOf denominator = factor
  letters : ∀ term, term ∈ numerator ++ denominator → term.InLetters
  noMarker : ∀ term, term ∈ numerator.tail ++ denominator → term.name ≠ ['a', 's']

theorem Presents.read {dimension : Dimension} {factor : Rat} {numerator denominator : List Term}
    {text : List Char} (presents : Presents dimension factor numerator denominator text) :
    Measure.read text = .ok { dimension, factor := .exact factor } := by
  rw [read_of_spells presents.spells presents.fewAbove presents.fewBelow, presents.isDimension,
    presents.isFactor]

/-- A unit that is not one of plain numbers starts with a term, or with a one in place of the numerator. -/
theorem Presents.starts {dimension : Dimension} {factor : Rat} {numerator denominator : List Term}
    {text : List Char} (presents : Presents dimension factor numerator denominator text)
    (notOne : dimension ≠ Dimension.one) :
    (∃ first more, numerator = first :: more) ∨ ∃ rest, text = "1 / ".toList ++ rest := by
  cases numerator with
  | cons first more => exact Or.inl ⟨first, more, rfl⟩
  | nil =>
      have isDimension := presents.isDimension
      cases presents.spells with
      | whole => exact absurd (isDimension.symm.trans (sub_zero 0)) notOne
      | inverse => exact Or.inr ⟨_, rfl⟩
      | quotient nonempty _ => exact absurd rfl nonempty

theorem halfText_ne_nil {terms : List Term} (nonempty : terms ≠ []) : halfText terms ≠ [] := by
  match terms with
  | [] => exact absurd rfl nonempty
  | [term] =>
      rw [halfText_one]
      exact term.text_ne_nil
  | term :: second :: rest =>
      rw [halfText_cons_cons]
      exact List.append_ne_nil_of_left_ne_nil term.text_ne_nil _

theorem Presents.text_ne_nil {dimension : Dimension} {factor : Rat} {numerator denominator : List Term}
    {text : List Char} (presents : Presents dimension factor numerator denominator text)
    (notOne : dimension ≠ Dimension.one) : text ≠ [] := by
  rcases presents.starts notOne with ⟨first, more, rfl⟩ | ⟨rest, rfl⟩
  · have above := halfText_ne_nil (List.cons_ne_nil first more)
    cases presents.spells with
    | whole => exact above
    | quotient _ _ => exact List.append_ne_nil_of_left_ne_nil above _
  · exact List.cons_ne_nil _ _

end QuantityCalculator.Measure
