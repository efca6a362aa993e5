import QuantityCalculator.Text.Blank
import QuantityCalculator.Text.Digits
import QuantityCalculator.Text.Superscript

/-!
Words and powers as they are written.

Words that are joined by blanks are found again, and so is a power behind a name: as an integer in decimal
digits, and as one in superscripts.
-/

namespace QuantityCalculator.Text

/-! ### Words -/

private theorem words_append_blank {blank : Char} (isBlank : isBlank blank = true) (before after : List Char) :
    words (before ++ blank :: after) = words before ++ words after := by
  unfold words
  rw [List.splitOnP_append_cons before after isBlank, List.filter_append]

private theorem words_cons_blank {blank : Char} (isBlank : isBlank blank = true) (text : List Char) :
    words (blank :: text) = words text :=
  words_append_blank isBlank [] text

private theorem words_single {word : List Char} (nonempty : word ≠ [])
    (noBlank : ∀ c, c ∈ word → isBlank c = false) : words word = [word] := by
  unfold words
  rw [List.splitOnP_eq_singleton noBlank]
  cases word with
  | nil => exact absurd rfl nonempty
  | cons c rest => rfl

/-- Words with blanks between them, and possibly around them. -/
inductive Spaced : List (List Char) → List Char → Prop where
  | blanks {text : List Char} (blank : ∀ c, c ∈ text → isBlank c = true) : Spaced [] text
  | word {before word rest : List Char} {more : List (List Char)} (blank : ∀ c, c ∈ before → isBlank c = true)
      (apart : rest = [] ∨ ∃ c later, rest = c :: later ∧ isBlank c = true) (spaced : Spaced more rest) :
      Spaced (word :: more) (before ++ (word ++ rest))

theorem words_blanks_append {blanks : List Char} (blank : ∀ c, c ∈ blanks → isBlank c = true) (text : List Char) :
    words (blanks ++ text) = words text := by
  induction blanks with
  | nil => rfl
  | cons c rest ih =>
      rw [List.cons_append, words_cons_blank (blank c List.mem_cons_self),
        ih fun other member => blank other (List.mem_cons_of_mem _ member)]

theorem words_of_spaced {separate : List (List Char)} {text : List Char} (spaced : Spaced separate text)
    (plain : ∀ word, word ∈ separate → word ≠ [] ∧ ∀ c, c ∈ word → isBlank c = false) : words text = separate := by
  induction spaced with
  | blanks blank =>
      have all := words_blanks_append blank []
      rwa [List.append_nil] at all
  | @word before word rest more blank apart _ ih =>
      obtain ⟨nonempty, noBlank⟩ := plain word List.mem_cons_self
      have later := ih fun other member => plain other (List.mem_cons_of_mem _ member)
      rw [words_blanks_append blank]
      rcases apart with rfl | ⟨c, after, rfl, isBlank⟩
      · rw [List.append_nil, words_single nonempty noBlank, ← later]
        rfl
      · rw [words_append_blank isBlank, words_single nonempty noBlank, ← words_cons_blank isBlank, later]
        rfl

theorem Spaced.cons_blank {separate : List (List Char)} {text : List Char} (spaced : Spaced separate text) {c : Char}
    (isBlank : isBlank c = true) : Spaced separate (c :: text) := by
  cases spaced with
  | blanks blank => exact Spaced.blanks (List.forall_mem_cons.mpr ⟨isBlank, blank⟩)
  | word blank apart spaced => exact Spaced.word (List.forall_mem_cons.mpr ⟨isBlank, blank⟩) apart spaced

theorem Spaced.append_blank {separate : List (List Char)} {text : List Char} (spaced : Spaced separate text)
    {c : Char} (isBlank : isBlank c = true) : Spaced separate (text ++ [c]) := by
  induction spaced with
  | blanks blank => exact Spaced.blanks (List.forall_mem_append.mpr ⟨blank, List.forall_mem_singleton.mpr isBlank⟩)
  | word blank apart _ ih =>
      rw [List.append_assoc, List.append_assoc]
      refine Spaced.word blank (Or.inr ?_) ih
      rcases apart with rfl | ⟨first, later, rfl, firstBlank⟩
      · exact ⟨c, [], rfl, isBlank⟩
      · exact ⟨first, later ++ [c], rfl, firstBlank⟩

theorem spaced_intercalate (separate : List (List Char)) : Spaced separate ([' '].intercalate separate) := by
  induction separate with
  | nil => exact Spaced.blanks (List.forall_mem_nil _)
  | cons word rest ih =>
      cases rest with
      | nil =>
          have alone : Spaced [word] ([] ++ (word ++ [])) := Spaced.word (List.forall_mem_nil _) (Or.inl rfl) ih
          rw [List.nil_append, List.append_nil] at alone
          rwa [List.intercalate_singleton]
      | cons second others =>
          have blank : isBlank ' ' = true := rfl
          rw [List.intercalate_cons_cons, List.append_assoc]
          exact Spaced.word (List.forall_mem_nil _) (Or.inr ⟨' ', _, rfl, blank⟩) (ih.cons_blank blank)

theorem mem_of_spaced {separate : List (List Char)} {text : List Char} (spaced : Spaced separate text) {c : Char}
    (member : c ∈ text) : isBlank c = true ∨ ∃ word, word ∈ separate ∧ c ∈ word := by
  induction spaced with
  | blanks blank => exact Or.inl (blank c member)
  | word blank _ _ ih =>
      rcases List.mem_append.mp member with inBefore | later
      · exact Or.inl (blank c inBefore)
      · rcases List.mem_append.mp later with inWord | inRest
        · exact Or.inr ⟨_, List.mem_cons_self, inWord⟩
        · refine (ih inRest).imp_right fun ⟨word, inMore, inside⟩ => ?_
          exact ⟨word, List.mem_cons_of_mem _ inMore, inside⟩

theorem trimStart_of_noBlank {c : Char} (noBlank : isBlank c = false) (rest : List Char) :
    trimStart (c :: rest) = c :: rest := by
  rw [trimStart, List.dropWhile_cons, noBlank, if_neg Bool.false_ne_true]

theorem noBlank_of_trim {text rest : List Char} {c : Char} (trimmed : trim text = c :: rest) : isBlank c = false := by
  have front : trim text <+: trimStart text := by
    rw [trim, trimEnd, ← List.reverse_suffix, List.reverse_reverse]
    exact List.dropWhile_suffix isBlank
  obtain ⟨after, starts⟩ := front
  rw [trimmed] at starts
  have isFirst : text.dropWhile isBlank = c :: (rest ++ after) := starts.symm
  have first := List.head?_dropWhile_not isBlank text
  rw [isFirst] at first
  exact first

/-- The first word of a text starts where the text does, unless that is with a blank. -/
theorem exists_words_cons {c : Char} (noBlank : isBlank c = false) (rest : List Char) :
    ∃ word more, words (c :: rest) = (c :: word) :: more := by
  unfold words
  rw [List.splitOnP_cons_eq_if_modifyHead, noBlank, if_neg Bool.false_ne_true]
  cases pieces : rest.splitOnP isBlank with
  | nil => exact absurd pieces (List.splitOnP_ne_nil isBlank rest)
  | cons word more => exact ⟨word, _, rfl⟩

/-! ### Decimal integers -/

theorem readNat?_toDigits (n : Nat) : readNat? (Nat.toDigits 10 n) = some n := by
  unfold readNat?
  have digits : ((Nat.toDigits 10 n).all Char.isDigit) = true :=
    List.all_eq_true.mpr fun c member => Nat.isDigit_of_mem_toDigits (by decide) (by decide) member
  have nonempty : (Nat.toDigits 10 n).isEmpty = false :=
    List.isEmpty_eq_false_iff.mpr Nat.toDigits_ne_nil
  rw [nonempty, digits, Nat.ofDigitChars_ten_toDigits]
  rfl

theorem toList_repr (n : Int) :
    (Int.repr n).toList =
      if 0 ≤ n then Nat.toDigits 10 n.toNat else '-' :: Nat.toDigits 10 (-n).toNat := by
  rw [Int.repr_eq_if]
  split
  · rw [Nat.repr_eq_ofList_toDigits, String.toList_ofList]
  · rw [String.toList_append, Nat.repr_eq_ofList_toDigits, String.toList_ofList, String.toList_ofList]
    rfl

private theorem isDigit_of_mem_repr {n : Int} {c : Char} (member : c ∈ (Int.repr n).toList) :
    c = '-' ∨ c.isDigit = true := by
  have digit : ∀ m : Nat, c ∈ Nat.toDigits 10 m → c.isDigit = true := fun m inDigits =>
    Nat.isDigit_of_mem_toDigits (by decide) (by decide) inDigits
  rw [toList_repr] at member
  split at member
  · exact Or.inr (digit _ member)
  · rcases List.mem_cons.mp member with isMinus | later
    · exact Or.inl isMinus
    · exact Or.inr (digit _ later)

theorem repr_ne_nil (n : Int) : (Int.repr n).toList ≠ [] := by
  intro empty
  rw [toList_repr] at empty
  split at empty
  · exact absurd empty Nat.toDigits_ne_nil
  · cases empty

private theorem readInt?_of_isDigit {text : List Char} (digits : ∀ c, c ∈ text → c.isDigit = true) :
    readInt? text = (readNat? text).map Int.ofNat := by
  unfold readInt?
  split
  · cases digits '-' List.mem_cons_self
  · cases digits '+' List.mem_cons_self
  · rfl

/-- An integer is read back from its digits. -/
theorem readInt?_repr (n : Int) : readInt? (Int.repr n).toList = some n := by
  rw [toList_repr]
  split
  · rw [readInt?_of_isDigit fun c member => Nat.isDigit_of_mem_toDigits (by decide) (by decide) member,
      readNat?_toDigits, Option.map_some]
    exact congrArg some (Int.toNat_of_nonneg ‹0 ≤ n›)
  · simp only [readInt?, readNat?_toDigits]
    change some (-((-n).toNat : Int)) = some n
    rw [Int.toNat_of_nonneg (by omega), Int.neg_neg]

/-! ### Powers in superscripts -/

theorem eq_digitChar_of_isDigit {c : Char} (digit : c.isDigit = true) :
    ∃ d, d < 10 ∧ c = Nat.digitChar d := by
  have inRange : 48 ≤ c.toNat ∧ c.toNat ≤ 57 := Char.isDigit_iff_toNat.mp digit
  have each : ∀ d, d < 10 → Char.ofNat (48 + d) = Nat.digitChar d := by decide
  refine ⟨c.toNat - 48, by omega, ?_⟩
  rw [← each _ (by omega), Nat.add_sub_cancel' inRange.1, Char.ofNat_toNat]

private theorem mem_of_superscriptOf? {c raised : Char} (found : superscriptOf? c = some raised) :
    raised ∈ superscriptMinus :: superscriptDigits := by
  unfold superscriptOf? at found
  split at found
  · rw [← Option.some.inj found]
    exact List.mem_cons_self
  · split at found
    · exact List.mem_cons_of_mem _ (List.mem_of_getElem? found)
    · cases found

/-- Superscripts are neither blanks nor strokes nor carets. -/
theorem superscript_plain {raised : Char} (member : raised ∈ superscriptMinus :: superscriptDigits) :
    isSuperscript raised = true ∧ isBlank raised = false ∧ raised ≠ '/' ∧ raised ≠ '^' := by
  have each : (superscriptMinus :: superscriptDigits).all
      (fun c => isSuperscript c && !isBlank c && c != '/' && c != '^') = true := by
    decide
  have found := List.all_eq_true.mp each raised member
  simp only [Bool.and_eq_true, Bool.not_eq_true', bne_iff_ne, and_assoc] at found
  exact found

private theorem digitOf?_superscriptOf? {c : Char} (written : c = '-' ∨ c.isDigit = true) :
    (superscriptOf? c).bind digitOf? = some c := by
  rcases written with rfl | digit
  · rfl
  · obtain ⟨d, small, rfl⟩ := eq_digitChar_of_isDigit digit
    have each : ∀ d, d < 10 → (superscriptOf? (Nat.digitChar d)).bind digitOf? = some (Nat.digitChar d) := by
      decide
    exact each d small

/-- The superscripts of a power stand for its digits. -/
theorem filterMap_digitOf? (power : Int) :
    ((Int.repr power).toList.filterMap superscriptOf?).filterMap digitOf? = (Int.repr power).toList := by
  have written : ∀ text : List Char, (∀ c, c ∈ text → c = '-' ∨ c.isDigit = true) →
      text.filterMap (fun c => (superscriptOf? c).bind digitOf?) = text := by
    intro text
    induction text with
    | nil => exact fun _ => rfl
    | cons c rest ih =>
        intro each
        simp only [List.filterMap_cons, digitOf?_superscriptOf? (each c List.mem_cons_self)]
        rw [ih fun other member => each other (List.mem_cons_of_mem _ member)]
  rw [List.filterMap_filterMap]
  exact written _ fun c member => isDigit_of_mem_repr member

theorem mem_raisedPower {power : Int} {c : Char} (member : c ∈ (raisedPower power).toList) :
    c ∈ superscriptMinus :: superscriptDigits := by
  unfold raisedPower at member
  split at member
  · cases member
  · rw [String.toList_ofList] at member
    obtain ⟨digit, _, found⟩ := List.mem_filterMap.mp member
    exact mem_of_superscriptOf? found

/-- A character that does not end the name of a term.  Digits are left out, too: a lone one is no name. -/
def isNamePart (c : Char) : Bool :=
  !isBlank c && c != '/' && c != '^' && !isSuperscript c && !c.isDigit

theorem isNamePart_iff {c : Char} : isNamePart c = true ↔
    isBlank c = false ∧ c ≠ '/' ∧ c ≠ '^' ∧ isSuperscript c = false ∧ c.isDigit = false := by
  simp only [isNamePart, Bool.and_eq_true, Bool.not_eq_true', bne_iff_ne, and_assoc]

private theorem noCaret_of_plain {name : List Char} (plain : ∀ c, c ∈ name → isNamePart c = true) :
    ∀ c, c ∈ name → c ≠ '^' :=
  fun c member => (isNamePart_iff.mp (plain c member)).2.2.1

/-- Behind a caret the power stands as it is. -/
theorem nameAndPower_caret {name : List Char} (plain : ∀ c, c ∈ name → isNamePart c = true) (text : List Char) :
    nameAndPower (name ++ '^' :: text) = (name, some text) := by
  have caret : (name ++ '^' :: text).contains '^' = true :=
    List.contains_iff_mem.mpr (List.mem_append_right _ List.mem_cons_self)
  have passed : ∀ c, c ∈ name → (c != '^') = true := fun c member => bne_iff_ne.mpr (noCaret_of_plain plain c member)
  rw [nameAndPower, if_pos caret, List.takeWhile_append_of_pos passed, List.dropWhile_append_of_pos passed]
  exact congrArg (·, some text) (List.append_nil name)

/-- Superscripts behind a name are the power. -/
theorem nameAndPower_raised {name raised : List Char} (plain : ∀ c, c ∈ name → isNamePart c = true)
    (superscripts : ∀ c, c ∈ raised → isSuperscript c = true) :
    nameAndPower (name ++ raised) = (name, if raised.isEmpty then none else some (raised.filterMap digitOf?)) := by
  have noCaret : (name ++ raised).contains '^' = false := by
    apply Bool.eq_false_iff.mpr
    intro found
    rcases List.mem_append.mp (List.contains_iff_mem.mp found) with inName | inPower
    · exact noCaret_of_plain plain '^' inName rfl
    · cases superscripts '^' inPower
  have noSuperscript : name.reverse.takeWhile isSuperscript = [] := by
    cases reversed : name.reverse with
    | nil => rfl
    | cons last earlier =>
        have inName : last ∈ name := by
          rw [← List.mem_reverse, reversed]
          exact List.mem_cons_self
        rw [List.takeWhile_cons, (isNamePart_iff.mp (plain last inName)).2.2.2.1]
        rfl
  have power : ((name ++ raised).reverse.takeWhile isSuperscript).reverse = raised := by
    rw [List.reverse_append, List.takeWhile_append_of_pos, noSuperscript, List.append_nil, List.reverse_reverse]
    exact fun c member => superscripts c (List.mem_reverse.mp member)
  have cut : (name ++ raised).take ((name ++ raised).length - raised.length) = name := by
    rw [List.length_append, Nat.add_sub_cancel, List.take_left]
  simp only [nameAndPower, noCaret, Bool.false_eq_true, if_false, power, cut]
  cases raised with
  | nil =>
      rw [List.append_nil]
      rfl
  | cons c rest => rfl

end QuantityCalculator.Text
