import QuantityCalculator.Proofs.Measure.Reading
import QuantityCalculator.Proofs.Token.Scanner

/-!
Scanning units behind numbers.

A unit at the end of a text is taken as a whole with the number in front of it, and together they are one
lexeme.  There are two exceptions: a unit without a numerator starts with a number of its own, and a unit that
starts with the word as introduces a display unit.
-/

namespace QuantityCalculator.Token

open QuantityCalculator.Measure (Term Spells Presents halfText halfText_one halfText_cons_cons)

/-! ### Powers -/

theorem raisedPower_eq (power : Int) :
    (Text.raisedPower power).toList = [] ∨ ∃ digits, digits ≠ [] ∧
      (∀ c, c ∈ digits → Text.isSuperscriptDigit c = true) ∧
        ((Text.raisedPower power).toList = digits ∨
          (Text.raisedPower power).toList = Text.superscriptMinus :: digits) := by
  have raise : ∀ c : Char, c.isDigit = true →
      ∃ raised, Text.superscriptOf? c = some raised ∧ Text.isSuperscriptDigit raised = true := by
    intro c digit
    obtain ⟨d, small, rfl⟩ := Text.eq_digitChar_of_isDigit digit
    have each : ∀ d, d < 10 → ((Text.superscriptOf? (Nat.digitChar d)).any Text.isSuperscriptDigit) = true := by
      decide
    exact (Option.any_eq_true _ _).mp (each d small)
  have digits : ∀ n : Nat, ((Nat.toDigits 10 n).filterMap Text.superscriptOf?) ≠ [] ∧
      ∀ c, c ∈ (Nat.toDigits 10 n).filterMap Text.superscriptOf? → Text.isSuperscriptDigit c = true := by
    intro n
    obtain ⟨first, later, isDigits, isDigit⟩ := (IsNumeral.toDigits n).starts
    obtain ⟨raised, found, _⟩ := raise first isDigit
    constructor
    · rw [isDigits, List.filterMap_cons_some found]
      exact List.cons_ne_nil _ _
    · intro c member
      obtain ⟨digit, inDigits, isRaised⟩ := List.mem_filterMap.mp member
      obtain ⟨other, alsoRaised, isSuperscript⟩ := raise digit (isDigit_of_mem_toDigits digit inDigits)
      rw [isRaised] at alsoRaised
      rw [Option.some.inj alsoRaised]
      exact isSuperscript
  unfold Text.raisedPower
  split
  · exact Or.inl rfl
  · rw [String.toList_ofList, Text.toList_repr]
    split
    · exact Or.inr ⟨_, (digits _).1, (digits _).2, Or.inl rfl⟩
    · exact Or.inr ⟨_, (digits _).1, (digits _).2, Or.inr (List.filterMap_cons_some rfl)⟩

private theorem dropRaised?_digits {digits rest : List Char} (nonempty : digits ≠ [])
    (all : ∀ c, c ∈ digits → Text.isSuperscriptDigit c = true) (stops : Stops Text.isSuperscriptDigit rest) :
    dropRaised? (digits ++ rest) = some rest ∧
      dropRaised? (Text.superscriptMinus :: (digits ++ rest)) = some rest := by
  obtain ⟨first, later, rfl⟩ := List.exists_cons_of_ne_nil nonempty
  have noMinus : first ≠ Text.superscriptMinus := by
    rintro rfl
    have digit := all _ List.mem_cons_self
    revert digit
    decide
  have taken := takeWhile_append all stops
  have dropped := dropWhile_append all stops
  rw [List.cons_append] at taken dropped
  constructor <;> simp [dropRaised?, noMinus, taken, dropped]

private theorem dropPower_of_noCaret {text : List Char} (noCaret : text.head? ≠ some '^') :
    dropPower text = (dropRaised? text).getD text := by
  unfold dropPower
  split
  · exact absurd rfl noCaret
  · exact absurd rfl noCaret
  · rfl

def EndsTerm (rest : List Char) : Prop :=
  ∀ c, rest.head? = some c → c = ' '

theorem EndsTerm.stops {rest : List Char} (ends : EndsTerm rest) {kind : Char → Bool} (noBlank : kind ' ' = false) :
    Stops kind rest := by
  intro c isHead
  rw [ends c isHead, noBlank]

theorem EndsTerm.blank (rest : List Char) : EndsTerm (' ' :: rest) := by
  intro c isHead
  exact (Option.some.inj isHead).symm

/-! ### Terms -/

variable {first term : Term} {more terms numerator denominator : List Term} {text rest : List Char}

/-- The characters of a power, and the blank behind it, do not go on with a name and stand for themselves. -/
theorem apart_of_mem {c : Char} (member : c ∈ ' ' :: Text.superscriptMinus :: Text.superscriptDigits) :
    isLetter c = false ∧ c ≠ '_' ∧ marksName c = false ∧ c ≠ '\\' ∧ c ≠ Text.microSign := by
  have each : ((' ' :: Text.superscriptMinus :: Text.superscriptDigits).all fun c =>
      !isLetter c && c != '_' && !marksName c && c != '\\' && c != Text.microSign) = true := by
    decide
  have found := List.all_eq_true.mp each c member
  simpa only [Bool.and_eq_true, Bool.not_eq_true', bne_iff_ne, and_assoc] using found

private theorem apart_of_mem_raisedPower {power : Int} {c : Char} (member : c ∈ (Text.raisedPower power).toList) :
    isLetter c = false ∧ c ≠ '_' ∧ marksName c = false ∧ c ≠ '\\' ∧ c ≠ Text.microSign :=
  apart_of_mem (List.mem_cons_of_mem _ (Text.mem_raisedPower member))

private theorem head?_raisedPower (power : Int) (ends : EndsTerm rest) {c : Char}
    (isHead : ((Text.raisedPower power).toList ++ rest).head? = some c) :
    c ∈ ' ' :: Text.superscriptMinus :: Text.superscriptDigits := by
  rw [List.head?_append, Option.or_eq_some_iff] at isHead
  rcases isHead with inPower | ⟨_, inRest⟩
  · exact List.mem_cons_of_mem _ (Text.mem_raisedPower (List.mem_of_head? inPower))
  · rw [ends c inRest]
    exact List.mem_cons_self

private theorem stops_raisedPower (power : Int) (ends : EndsTerm rest) :
    Stops isLetter ((Text.raisedPower power).toList ++ rest) :=
  fun _ isHead => (apart_of_mem (head?_raisedPower power ends isHead)).1

private theorem dropPower_raisedPower (power : Int) (ends : EndsTerm rest) :
    dropPower ((Text.raisedPower power).toList ++ rest) = rest := by
  have noCaret : ((Text.raisedPower power).toList ++ rest).head? ≠ some '^' := fun isHead =>
    absurd (head?_raisedPower power ends isHead) (by decide)
  rw [dropPower_of_noCaret noCaret]
  rcases raisedPower_eq power with isOne | ⟨digits, nonempty, all, written⟩
  · rw [isOne, List.nil_append]
    cases rest with
    | nil => rfl
    | cons c later =>
        rw [ends c rfl]
        rfl
  · have dropped := dropRaised?_digits nonempty all (ends.stops (by decide))
    rcases written with plain | negative
    · rw [plain, dropped.1]
      rfl
    · rw [negative, List.cons_append, dropped.2]
      rfl

theorem text_append (term : Term) (rest : List Char) :
    term.text ++ rest = term.name ++ ((Text.raisedPower term.power).toList ++ rest) :=
  List.append_assoc _ _ _

private theorem takeWhile_term (letters : term.InLetters) (ends : EndsTerm rest) :
    (term.text ++ rest).takeWhile isLetter = term.name := by
  rw [text_append, takeWhile_append letters (stops_raisedPower term.power ends)]

private theorem dropTerm?_term (letters : term.InLetters) (ends : EndsTerm rest) :
    dropTerm? (term.text ++ rest) = some rest := by
  have stops := stops_raisedPower term.power ends
  have nonempty : term.name.isEmpty = false := List.isEmpty_eq_false_iff.mpr term.nonempty
  unfold dropTerm?
  rw [text_append, takeWhile_append letters stops, dropWhile_append letters stops, nonempty,
    if_neg Bool.false_ne_true, dropPower_raisedPower term.power ends]

private theorem term_starts (term : Term) (rest : List Char) :
    ∃ c later, term.text ++ rest = c :: later ∧ c ∈ term.text := by
  obtain ⟨c, later, isText⟩ := List.exists_cons_of_ne_nil term.text_ne_nil
  exact ⟨c, later ++ rest, by rw [isText, List.cons_append], isText ▸ List.mem_cons_self⟩

private theorem term_starts_letter (letters : term.InLetters) (rest : List Char) :
    ∃ c later, term.text ++ rest = c :: later ∧ isLetter c = true := by
  obtain ⟨c, later, isName⟩ := List.exists_cons_of_ne_nil term.nonempty
  have inName : c ∈ term.name := isName ▸ List.mem_cons_self
  exact ⟨c, _, by rw [text_append, isName, List.cons_append], letters c inName⟩

private theorem trimStart_term (term : Term) (rest : List Char) : Text.trimStart
    (term.text ++ rest) = term.text ++ rest := by
  obtain ⟨c, later, starts, inText⟩ := term_starts term rest
  rw [starts, Text.trimStart_of_noBlank (term.text_plain inText).1]

private theorem trimStart_blank (text : List Char) : Text.trimStart (' ' :: text) = Text.trimStart text :=
  rfl

/-! ### Halves -/

inductive EndsHalf : List Char → Prop where
  | finish : EndsHalf []
  | stroke (rest : List Char) : EndsHalf (" / ".toList ++ rest)

private theorem EndsHalf.endsTerm (ends : EndsHalf rest) : EndsTerm rest := by
  cases ends with
  | finish => exact fun c isHead => by cases isHead
  | stroke rest => exact .blank _

private theorem dropMoreTerms_of_endsHalf (ends : EndsHalf rest) (count : Nat) : dropMoreTerms count rest = rest := by
  cases count with
  | zero => rfl
  | succ count => cases ends <;> rfl

private theorem dropMoreTerms_blank (count : Nat) (text : List Char) :
    dropMoreTerms (count + 1) (' ' :: text) =
      match dropTerm? (Text.trimStart text) with
      | some rest => dropMoreTerms count rest
      | none => ' ' :: text :=
  rfl

private theorem dropMoreTerms_halfText (letters : ∀ term, term ∈ first :: more → term.InLetters) (ends : EndsHalf rest)
    {count : Nat} (enough : more.length < count) :
    dropMoreTerms count (' ' :: (halfText (first :: more) ++ rest)) = rest := by
  have inLetters := letters first List.mem_cons_self
  obtain ⟨smaller, rfl⟩ := Nat.exists_eq_succ_of_ne_zero (Nat.ne_zero_of_lt enough)
  -- each term takes one of the count, the last one included
  induction more generalizing first smaller with
  | nil =>
      have dropped := dropTerm?_term inLetters ends.endsTerm
      rw [dropMoreTerms_blank, halfText_one, trimStart_term, dropped]
      exact dropMoreTerms_of_endsHalf ends smaller
  | cons second others ih =>
      rw [List.length_cons] at enough
      obtain ⟨count, rfl⟩ := Nat.exists_eq_succ_of_ne_zero (n := smaller) (by omega)
      have dropped := dropTerm?_term inLetters (.blank (halfText (second :: others) ++ rest))
      have onward := ih (fun term member => letters term (List.mem_cons_of_mem _ member))
        (letters second (List.mem_cons_of_mem _ List.mem_cons_self)) count (by omega)
      rw [dropMoreTerms_blank, halfText_cons_cons, List.append_assoc, List.cons_append, trimStart_term, dropped]
      exact onward

private theorem length_le_halfText (terms : List Term) : terms.length ≤ (halfText terms).length := by
  induction terms with
  | nil => exact Nat.zero_le _
  | cons first more ih =>
      have positive : 0 < first.text.length := List.length_pos_of_ne_nil first.text_ne_nil
      cases more with
      | nil =>
          rw [halfText_one]
          exact positive
      | cons second others =>
          rw [halfText_cons_cons]
          simp only [List.length_append, List.length_cons] at ih ⊢
          omega

private theorem dropTerms?_halfText (letters : ∀ term, term ∈ first :: more → term.InLetters) (ends : EndsHalf rest) :
    dropTerms? (halfText (first :: more) ++ rest) = some rest := by
  have inLetters := letters first List.mem_cons_self
  cases more with
  | nil =>
      rw [dropTerms?, halfText_one, dropTerm?_term inLetters ends.endsTerm, Option.map_some,
        dropMoreTerms_of_endsHalf ends]
  | cons second others =>
      have enough := length_le_halfText (second :: others)
      rw [dropTerms?, halfText_cons_cons, List.append_assoc, List.cons_append,
        dropTerm?_term inLetters (.blank _), Option.map_some, dropMoreTerms_halfText
          (fun term member => letters term (List.mem_cons_of_mem _ member)) ends]
      rw [List.length_cons] at enough ⊢
      rw [List.length_append]
      omega

private theorem trimStart_halfText (first : Term) (more : List Term) (rest : List Char) :
    Text.trimStart (halfText (first :: more) ++ rest) = halfText (first :: more) ++ rest := by
  cases more with
  | nil => rw [halfText_one, trimStart_term]
  | cons second others => rw [halfText_cons_cons, List.append_assoc, trimStart_term]

/-! ### Units -/

/-- A unit with a numerator is taken as a whole, with the blank before it. -/
theorem takeUnit?_of_spells (spells : Spells (first :: more) denominator text)
    (letters : ∀ term, term ∈ first :: more ++ denominator → term.InLetters) :
    takeUnit? (' ' :: text) = some (' ' :: text, []) := by
  have above : ∀ term, term ∈ first :: more → term.InLetters :=
    fun term member => letters term (List.mem_append_left _ member)
  have dropped : dropUnit? (' ' :: text) = some [] := by
    cases spells with
    | whole =>
        have half := dropTerms?_halfText above .finish
        rw [List.append_nil] at half
        have trimmed := trimStart_halfText first more []
        rw [List.append_nil] at trimmed
        rw [dropUnit?, trimStart_blank, trimmed, half]
        rfl
    | quotient _ nonempty =>
        obtain ⟨second, others, rfl⟩ := List.exists_cons_of_ne_nil nonempty
        have below : ∀ term, term ∈ second :: others → term.InLetters :=
          fun term member => letters term (List.mem_append_right _ member)
        have half := dropTerms?_halfText below .finish
        have trimmed := trimStart_halfText second others []
        rw [List.append_nil] at half trimmed
        have stroke : Text.trimStart (" / ".toList ++ halfText (second :: others)) =
            '/' :: ' ' :: halfText (second :: others) := rfl
        rw [dropUnit?, trimStart_blank, trimStart_halfText, dropTerms?_halfText above (.stroke _)]
        simp only [Option.bind_eq_bind, Option.bind_some, stroke, trimStart_blank, trimmed, half]
        rfl
  rw [takeUnit?, dropped]
  simp

/-! ### The word that introduces a display unit -/

private theorem beforeAs?_of_not_letter {c : Char} (noLetter : isLetter c = false) (afterLetter : Bool)
    (rest : List Char) :
    beforeAs? afterLetter (c :: rest) = (beforeAs? false rest).map (c :: ·) := by
  have noWord : (c :: rest).takeWhile isLetter ≠ ['a', 's'] := by
    rw [List.takeWhile_cons, noLetter, if_neg Bool.false_ne_true]
    exact fun impossible => by cases impossible
  rw [beforeAs?, noLetter, decide_eq_false noWord, Bool.and_false, if_neg Bool.false_ne_true]

private theorem beforeAs?_append_of_not_letter {run : List Char} (noLetter : ∀ c, c ∈ run → isLetter c = false)
    (noWord : beforeAs? false rest = none) : beforeAs? false (run ++ rest) = none := by
  induction run with
  | nil => exact noWord
  | cons c later ih =>
      rw [List.cons_append, beforeAs?_of_not_letter (noLetter c List.mem_cons_self),
        ih fun other member => noLetter other (List.mem_cons_of_mem _ member)]
      rfl

private theorem beforeAs?_within_letters {run : List Char} (letters : ∀ c, c ∈ run → isLetter c = true)
    (stops : Stops isLetter rest) (noWord : beforeAs? false rest = none) :
    beforeAs? true (run ++ rest) = none := by
  -- behind a letter no word starts, so only the rest can have one
  induction run with
  | nil =>
      cases rest with
      | nil => rfl
      | cons c later =>
          have noLetter := stops c rfl
          rw [beforeAs?_of_not_letter noLetter] at noWord
          rw [List.nil_append, beforeAs?_of_not_letter noLetter, noWord]
  | cons c later ih =>
      have onward := ih fun other member => letters other (List.mem_cons_of_mem _ member)
      rw [List.cons_append, beforeAs?, Bool.not_true, Bool.false_and, if_neg Bool.false_ne_true,
        letters c List.mem_cons_self, onward]
      rfl

private theorem beforeAs?_term (letters : term.InLetters) (noMarker : term.name ≠ ['a', 's']) (ends : EndsTerm rest)
    (noWord : beforeAs? false rest = none) : beforeAs? false (term.text ++ rest) = none := by
  have stops := stops_raisedPower term.power ends
  have powerNoLetter : ∀ c, c ∈ (Text.raisedPower term.power).toList → isLetter c = false :=
    fun c member => (apart_of_mem_raisedPower member).1
  have afterName := beforeAs?_append_of_not_letter powerNoLetter noWord
  obtain ⟨c, later, isName⟩ := List.exists_cons_of_ne_nil term.nonempty
  have letters : ∀ c, c ∈ term.name → isLetter c = true := letters
  have taken := takeWhile_append letters stops
  rw [text_append]
  rw [isName] at letters noMarker taken ⊢
  have onward := beforeAs?_within_letters (fun other member => letters other (List.mem_cons_of_mem _ member)) stops
    afterName
  rw [List.cons_append] at taken ⊢
  rw [beforeAs?, taken, decide_eq_false noMarker, Bool.and_false, if_neg Bool.false_ne_true,
    letters c List.mem_cons_self, onward]
  rfl

private theorem beforeAs?_halfText (letters : ∀ term, term ∈ terms → term.InLetters)
    (noMarker : ∀ term, term ∈ terms → term.name ≠ ['a', 's']) (ends : EndsTerm rest)
    (noWord : beforeAs? false rest = none) : beforeAs? false (halfText terms ++ rest) = none := by
  induction terms with
  | nil => exact noWord
  | cons first more ih =>
      have onward := ih (fun term member => letters term (List.mem_cons_of_mem _ member))
        fun term member => noMarker term (List.mem_cons_of_mem _ member)
      have inLetters := letters first List.mem_cons_self
      have noMarkerFirst := noMarker first List.mem_cons_self
      cases more with
      | nil =>
          rw [halfText_one]
          exact beforeAs?_term inLetters noMarkerFirst ends noWord
      | cons second others =>
          rw [halfText_cons_cons, List.append_assoc, List.cons_append]
          refine beforeAs?_term inLetters noMarkerFirst (.blank _) ?_
          rw [beforeAs?_of_not_letter (by decide), onward]
          rfl

private theorem beforeAs?_of_spells (spells : Spells (first :: more) denominator text)
    (letters : ∀ term, term ∈ first :: more ++ denominator → term.InLetters)
    (noMarker : ∀ term, term ∈ first :: more ++ denominator → term.name ≠ ['a', 's']) :
    beforeAs? false (' ' :: text) = none := by
  have above : ∀ {rest : List Char}, EndsTerm rest → beforeAs? false rest = none →
      beforeAs? false (halfText (first :: more) ++ rest) = none :=
    beforeAs?_halfText (fun term member => letters term (List.mem_append_left _ member))
      fun term member => noMarker term (List.mem_append_left _ member)
  have below : beforeAs? false (halfText denominator ++ []) = none :=
    beforeAs?_halfText (fun term member => letters term (List.mem_append_right _ member))
      (fun term member => noMarker term (List.mem_append_right _ member)) EndsHalf.finish.endsTerm rfl
  have noWord : beforeAs? false text = none := by
    cases spells with
    | whole =>
        have alone := above EndsHalf.finish.endsTerm rfl
        rwa [List.append_nil] at alone
    | quotient _ _ =>
        rw [List.append_nil] at below
        refine above (EndsHalf.stroke _).endsTerm ?_
        change beforeAs? false (' ' :: '/' :: ' ' :: halfText denominator) = none
        rw [beforeAs?_of_not_letter (by decide), beforeAs?_of_not_letter (by decide),
          beforeAs?_of_not_letter (by decide), below]
        rfl
  rw [beforeAs?_of_not_letter (by decide), noWord]
  rfl

/-! ### The unit of a literal -/

private theorem exists_tail_of_spells (spells : Spells (first :: more) denominator text) :
    ∃ tail, text = first.text ++ tail ∧ EndsTerm tail := by
  have half : ∀ {rest : List Char}, EndsTerm rest →
      ∃ tail, halfText (first :: more) ++ rest = first.text ++ tail ∧ EndsTerm tail := by
    intro rest ends
    cases more with
    | nil => exact ⟨rest, by rw [halfText_one], ends⟩
    | cons second others =>
        refine ⟨' ' :: (halfText (second :: others) ++ rest), ?_, .blank _⟩
        rw [halfText_cons_cons, List.append_assoc, List.cons_append]
  cases spells with
  | whole =>
      have alone := half EndsHalf.finish.endsTerm
      rwa [List.append_nil] at alone
  | quotient _ _ => exact half (EndsHalf.stroke _).endsTerm

private theorem exists_last_of_spells (spells : Spells (first :: more) denominator text) :
    ∃ (before : List Char) (last : Term), text = before ++ last.text := by
  have half : ∀ (first : Term) (more : List Term), ∃ (before : List Char) (last : Term),
      halfText (first :: more) = before ++ last.text := by
    intro first more
    induction more generalizing first with
    | nil => exact ⟨[], first, halfText_one first⟩
    | cons second others ih =>
        obtain ⟨before, last, ends⟩ := ih second
        exact ⟨first.text ++ ' ' :: before, last, by rw [halfText_cons_cons, ends, List.append_assoc]; rfl⟩
  cases spells with
  | whole => exact half first more
  | quotient _ nonempty =>
      obtain ⟨second, others, rfl⟩ := List.exists_cons_of_ne_nil nonempty
      obtain ⟨before, last, ends⟩ := half second others
      exact ⟨halfText (first :: more) ++ (" / ".toList ++ before), last, by
        rw [ends, List.append_assoc, List.append_assoc]⟩

private theorem trim_of_spells (spells : Spells (first :: more) denominator text) : Text.trim (' ' :: text) = text := by
  obtain ⟨tail, starts, _⟩ := exists_tail_of_spells spells
  obtain ⟨before, last, ends⟩ := exists_last_of_spells spells
  have front : Text.trimStart (' ' :: text) = text := by
    rw [trimStart_blank, starts, trimStart_term]
  have reversed : ∃ c others, last.text.reverse = c :: others := by
    apply List.exists_cons_of_ne_nil
    rw [ne_eq, List.reverse_eq_nil_iff]
    exact last.text_ne_nil
  obtain ⟨c, others, isReverse⟩ := reversed
  have inText : c ∈ last.text := by
    rw [← List.mem_reverse, isReverse]
    exact List.mem_cons_self
  rw [Text.trim, front, Text.trimEnd, ends, List.reverse_append, isReverse, List.cons_append, List.dropWhile_cons,
    (last.text_plain inText).1, if_neg Bool.false_ne_true, ← List.cons_append, ← isReverse, List.reverse_append,
    List.reverse_reverse, List.reverse_reverse]

private theorem takeSuffix?_of_spells (spells : Spells (first :: more) denominator text)
    (letters : ∀ term, term ∈ first :: more ++ denominator → term.InLetters)
    (noMarker : ∀ term, term ∈ first :: more ++ denominator → term.name ≠ ['a', 's']) :
    takeSuffix? (' ' :: text) = some (' ' :: text, []) := by
  obtain ⟨tail, starts, _⟩ := exists_tail_of_spells spells
  have nonempty : text.isEmpty = false := by
    rw [starts, List.isEmpty_eq_false_iff]
    exact List.append_ne_nil_of_left_ne_nil first.text_ne_nil _
  have kept : cutAtAs (' ' :: text) = ' ' :: text := by
    rw [cutAtAs, beforeAs?_of_spells spells letters noMarker]
  simp only [takeSuffix?, takeUnit?_of_spells spells letters, Option.bind_eq_bind, Option.bind_some, kept,
    trim_of_spells spells, nonempty, List.drop_length]
  rfl

/-- A unit whose first term is the word as is no part of a literal. -/
theorem takeSuffix?_of_marker (spells : Spells (first :: more) denominator text)
    (letters : ∀ term, term ∈ first :: more ++ denominator → term.InLetters) (marker : first.name = ['a', 's']) :
    takeSuffix? (' ' :: text) = none := by
  obtain ⟨tail, starts, ends⟩ := exists_tail_of_spells spells
  have taken := takeWhile_term (letters first List.mem_cons_self) ends
  rw [← starts, marker] at taken
  have cut : beforeAs? false text = some [] := by
    -- the cut is at the very start, which leaves nothing of the unit
    cases text with
    | nil => cases taken
    | cons c rest => rw [beforeAs?, taken, Bool.not_false, decide_eq_true rfl, Bool.and_self, if_pos rfl]
  have kept : cutAtAs (' ' :: text) = [] := by
    rw [cutAtAs, beforeAs?_of_not_letter (by decide), cut]
    rfl
  simp only [takeSuffix?, takeUnit?_of_spells spells letters, Option.bind_eq_bind, Option.bind_some, kept]
  rfl

theorem noEscape_of_presents {dimension : Dimension} {factor : Rat}
    (presents : Presents dimension factor numerator denominator text) :
    ∀ c, c ∈ text → c ≠ '\\' ∧ c ≠ Text.microSign := by
  have half : ∀ terms : List Term, (∀ term, term ∈ terms → term.InLetters) →
      ∀ c, c ∈ halfText terms → c ≠ '\\' ∧ c ≠ Text.microSign := by
    intro terms letters c member
    rcases Measure.mem_halfText member with rfl | ⟨term, inTerms, inText⟩
    · decide
    · rcases List.mem_append.mp inText with inName | inPower
      · exact (plain_of_isSubscript (isSubscript_of_isLetter (letters term inTerms c inName))).2.2
      · exact (apart_of_mem_raisedPower inPower).2.2.2
  have above := half numerator fun term member => presents.letters term (List.mem_append_left _ member)
  have below := half denominator fun term member => presents.letters term (List.mem_append_right _ member)
  have stroke : ∀ c, c ∈ '1' :: " / ".toList → c ≠ '\\' ∧ c ≠ Text.microSign := by
    intro c member
    have each : (('1' :: " / ".toList).all fun c => c != '\\' && c != Text.microSign) = true := by decide
    have plain := List.all_eq_true.mp each c member
    rwa [Bool.and_eq_true, bne_iff_ne, bne_iff_ne] at plain
  intro c member
  cases presents.spells with
  | whole => exact above c member
  | inverse => exact (List.mem_append.mp member).elim (stroke c) (below c)
  | quotient _ _ =>
      rcases List.mem_append.mp member with inNumerator | inRest
      · exact above c inNumerator
      · exact (List.mem_append.mp inRest).elim (fun inStroke => stroke c (List.mem_cons_of_mem _ inStroke)) (below c)

/-! ### Numbers with units -/

/-- A unit that does not start like a lexeme of its own: with a number, or with the word as. -/
def FollowsNumber (unit : List Char) : Prop :=
  unit.head? ≠ some '1' ∧ unit.takeWhile isLetter ≠ ['a', 's']

instance (unit : List Char) : Decidable (FollowsNumber unit) :=
  inferInstanceAs (Decidable (_ ∧ _))

variable {digits unit : List Char} {r factor : Rat} {dimension : Dimension}

private theorem scanLiteral_blank {number : Number} (literal : IsLiteral digits number) (rest : List Char) :
    scanLiteral (digits ++ ' ' :: rest) =
      match takeSuffix? (' ' :: rest) with
      | none => .ok (.quantity (Quantity.ofNumber number), ' ' :: rest)
      | some (unit, after) =>
        (Measure.read (Text.trim unit)).map fun measure =>
          (.quantity { magnitude := number * measure.factor, dimension := measure.dimension }, after) :=
  scanLiteral_append literal (EndsTerm.blank rest |>.stops rfl) (fun isHead => by cases isHead)
    fun isHead => by cases isHead

theorem scanLiteral_unit (literal : IsLiteral digits (.exact r))
    (presents : Presents dimension factor numerator denominator unit) (notOne : dimension ≠ Dimension.one)
    (follows : FollowsNumber unit) :
    scanLiteral (digits ++ ' ' :: unit) =
      .ok (.quantity { magnitude := .exact (r * factor), dimension }, []) := by
  rcases presents.starts notOne with ⟨first, more, rfl⟩ | ⟨rest, rfl⟩
  · obtain ⟨tail, starts, ends⟩ := exists_tail_of_spells presents.spells
    have taken := takeWhile_term (presents.letters first List.mem_cons_self) ends
    have noMarker : ∀ term, term ∈ first :: more ++ denominator → term.name ≠ ['a', 's'] := by
      refine List.forall_mem_cons.mpr ⟨fun marker => follows.2 ?_, presents.noMarker⟩
      rw [starts, taken, marker]
    rw [scanLiteral_blank literal, takeSuffix?_of_spells presents.spells presents.letters noMarker]
    change (Measure.read (Text.trim (' ' :: unit))).map _ = _
    rw [trim_of_spells presents.spells, presents.read]
    rfl
  · exact absurd rfl follows.1

def IsApart : Token → Prop
  | .quantity _ => True
  | .displayUnit _ => True
  | _ => False

private theorem scanName_marker (ends : EndsTerm rest) (power : Int) :
    scanName ('a' :: 's' :: ((Text.raisedPower power).toList ++ rest)) =
      scanDisplayUnit "as" ((Text.raisedPower power).toList ++ rest) := by
  have marker : ∀ c, c ∈ ['a', 's'] → isLetter c = true :=
    List.forall_mem_cons.mpr ⟨by decide, List.forall_mem_singleton.mpr (by decide)⟩
  have stops := stops_raisedPower power ends
  have taken := takeWhile_append marker stops
  have dropped := dropWhile_append marker stops
  have plain : ∀ c, ((Text.raisedPower power).toList ++ rest).head? = some c → c ≠ '_' ∧ marksName c = false := by
    intro c isHead
    obtain ⟨_, noLine, noMark, _⟩ := apart_of_mem (head?_raisedPower power ends isHead)
    exact ⟨noLine, noMark⟩
  generalize (Text.raisedPower power).toList ++ rest = behind at taken dropped plain
  have name : takeName ('a' :: 's' :: behind) = (['a', 's'], behind) := by
    change takeName (['a', 's'] ++ behind) = _
    unfold takeName
    rw [taken, dropped]
    split
    · exact absurd rfl (plain '_' rfl).1
    · rfl
  have noMark : behind.head?.any marksName = false := by
    cases behind with
    | nil => rfl
    | cons c later => exact (plain c rfl).2
  rw [scanName, name]
  dsimp only
  rw [noMark]
  rfl

/-- Such a unit is no part of a literal, and a number or a display unit by itself. -/
theorem scanOne_apart (presents : Presents dimension factor numerator denominator unit)
    (notOne : dimension ≠ Dimension.one) (apart : ¬FollowsNumber unit) (results : Nat) :
    takeSuffix? (' ' :: unit) = none ∧ (∃ c rest, unit = c :: rest ∧ Text.isBlank c = false) ∧
      ∀ token rest, scanOne results unit = .ok (token, rest) → token.IsApart := by
  rcases presents.starts notOne with ⟨first, more, rfl⟩ | ⟨rest, rfl⟩
  · obtain ⟨tail, starts, ends⟩ := exists_tail_of_spells presents.spells
    have inLetters := presents.letters first List.mem_cons_self
    have taken := takeWhile_term inLetters ends
    obtain ⟨c, later, isUnit, letter⟩ := term_starts_letter inLetters tail
    have noBlank := (plain_of_isSubscript (isSubscript_of_isLetter letter)).2.1
    have marker : first.name = ['a', 's'] := by
      by_contra noMarker
      refine apart ⟨?_, ?_⟩
      · rw [starts, isUnit]
        intro isOne
        rw [Option.some.inj isOne] at letter
        exact absurd letter (by decide)
      · rwa [starts, taken]
    refine ⟨takeSuffix?_of_marker presents.spells presents.letters marker,
      ⟨c, later, starts.trans isUnit, noBlank⟩, fun token rest scanned => ?_⟩
    have written : unit = 'a' :: 's' :: ((Text.raisedPower first.power).toList ++ tail) := by
      rw [starts, text_append, marker]
      rfl
    have isName : scanOne results unit = scanDisplayUnit "as" ((Text.raisedPower first.power).toList ++ tail) := by
      rw [written, scanOne_of_not_mem_marks (by decide), if_pos (by decide), scanName_marker ends]
    obtain ⟨read, rfl⟩ := scanDisplayUnit_eq_ok (isName.symm.trans scanned)
    trivial
  · have one : IsLiteral ['1'] (.exact (1 : Nat)) := IsLiteral.whole (.toDigits 1)
    refine ⟨rfl, ⟨'1', _, rfl, by decide⟩, fun token after scanned => ?_⟩
    change scanOne results (['1'] ++ ' ' :: '/' :: ' ' :: rest) = _ at scanned
    rw [scanOne_of_isLiteral one] at scanned
    obtain ⟨value, rfl⟩ := scanLiteral_eq_ok scanned
    trivial

private theorem scanWithin_starts {results count : Nat} {tokens : List Token}
    (starts : ∃ c after, text = c :: after ∧ Text.isBlank c = false)
    (scanned : scanWithin results (count + 1) text = .ok tokens) :
    ∃ token rest others, tokens = token :: others ∧ scanOne results text = .ok (token, rest) ∧
      scanWithin results count rest = .ok others := by
  obtain ⟨c, after, rfl, noBlank⟩ := starts
  simp only [scanWithin, Text.trimStart_of_noBlank noBlank] at scanned
  obtain ⟨⟨token, rest⟩, first, onward⟩ := bind_eq_ok_iff.mp scanned
  obtain ⟨others, later, same⟩ := bind_eq_ok_iff.mp onward
  exact ⟨token, rest, others, (Except.ok.inj same).symm, first, later⟩

/-- What starts like a lexeme of its own is not read as the unit of a number. -/
theorem exists_apart (literal : IsLiteral digits (.exact r))
    (presents : Presents dimension factor numerator denominator unit) (notOne : dimension ≠ Dimension.one)
    (apart : ¬FollowsNumber unit) {results count : Nat} {tokens : List Token}
    (scanned : scanWithin results (count + 2) (digits ++ ' ' :: unit) = .ok tokens) :
    ∃ second rest, tokens = .quantity (Quantity.ofNumber (.exact r)) :: second :: rest ∧ second.IsApart := by
  obtain ⟨noSuffix, starts, second⟩ := scanOne_apart presents notOne apart results
  obtain ⟨c, later, isDigits, digit⟩ := literal.starts
  have noBlank := (plain_of_isSubscript (isSubscript_of_isDigit digit)).2.1
  obtain ⟨token, rest, others, rfl, first, onward⟩ := scanWithin_starts
    ⟨c, later ++ ' ' :: unit, by rw [isDigits, List.cons_append], noBlank⟩ scanned
  rw [scanOne_of_isLiteral literal, scanLiteral_blank literal, noSuffix] at first
  cases first
  rw [scanWithin_blank] at onward
  obtain ⟨next, after, tokens, rfl, isNext, _⟩ := scanWithin_starts starts onward
  exact ⟨next, tokens, rfl, second next after isNext⟩

end QuantityCalculator.Token
