import QuantityCalculator.Proofs.Evaluation.Fraction
import QuantityCalculator.Proofs.Formula.Exact
import QuantityCalculator.Proofs.Line.Acceptance

/-!
Blanks around operators.

Where no blanks stand around a stroke between numerals, it makes a fraction.  Fractions that are divisors,
exponents or bases change what a line means, and one behind an approximate factor changes how it is rounded;
apart from that, blanks do not matter.
-/

namespace QuantityCalculator

namespace Piece

private theorem isPart_token (piece : Piece) : Line.IsPart piece.token := by
  cases piece <;> trivial

private theorem isPart_fused (lexeme : Fused) : Line.IsPart lexeme.token := by
  cases lexeme with
  | piece single => exact isPart_token single
  | fraction n d => trivial

/-- What an expression starts with is no binary operator. -/
theorem isSign_of_head {pieces : List Piece} (alternate : Alternate .before pieces) {operator : Operator}
    (isHead : (pieces.map token).head? = some (.operator operator)) : operator.isSign = true := by
  cases alternate with
  | sign later =>
      cases isHead
      rfl
  | _ => cases isHead

private theorem isSign_of_head_fused {pieces : List Piece} (alternate : Alternate .before pieces) {operator : Operator}
    (isHead : ((fuse pieces).map Fused.token).head? = some (.operator operator)) : operator.isSign = true := by
  cases alternate with
  | numeral number later =>
      unfold fuse at isHead
      split at isHead
      · cases isHead
      · rename_i isCons
        obtain ⟨rfl, _⟩ := List.cons.inj isCons
        cases isHead
      · cases isHead
  | sign later =>
      cases isHead
      rfl
  | _ => cases isHead

end Piece

namespace Line

variable {workspace : Workspace} {pieces : List Piece} {formula : Formula} {compact spaced : Line}

private theorem exists_formula_of_parts {tokens : List Token} {line : Line}
    (parts : ∀ token, token ∈ tokens → IsPart token)
    (whole : Continues workspace tokens tokens) (accepted : ofTokens workspace tokens = .ok line) :
    ∃ formula, Formula.ofTokens tokens = .ok formula ∧ line.expression = formula.normalize := by
  have noUnit : tokens ++ unitTokens none = tokens := List.append_nil tokens
  rw [← noUnit, ofTokens_of_parts parts whole] at accepted
  obtain ⟨formula, read, rfl⟩ := map_eq_ok_iff.mp accepted
  exact ⟨formula, read, rfl⟩

/-- Without blanks a line is read from its lexemes, with the fractions among them. -/
theorem exists_fused (alternate : Piece.Alternate .before pieces)
    (accepted : read workspace (String.ofList (Piece.compactText pieces)) = .ok compact) :
    (∀ lexeme, lexeme ∈ Piece.fuse pieces → lexeme.IsLexeme) ∧
      ∃ fused, Formula.ofTokens ((Piece.fuse pieces).map Piece.Fused.token) = .ok fused ∧
        compact.expression = fused.normalize := by
  obtain ⟨tokens, scanned, accepted⟩ := exists_scan accepted
  obtain ⟨sound, rfl⟩ := Piece.of_scan_compact alternate scanned
  refine ⟨sound, exists_formula_of_parts (fun token member => ?_)
    (.whole fun operator isHead => Piece.isSign_of_head_fused alternate isHead) accepted⟩
  obtain ⟨lexeme, _, rfl⟩ := List.mem_map.mp member
  exact Piece.isPart_fused lexeme

private theorem expression_of_spaced (arithmetic : Formula.Derives .sum (pieces.map Piece.token) formula)
    (alternate : Piece.Alternate .before pieces)
    (accepted : read workspace (String.ofList (Piece.spacedText pieces)) = .ok spaced) :
    spaced.expression = formula.normalize := by
  rw [read_eq_ofTokens (Piece.scan_spaced _ alternate)] at accepted
  obtain ⟨other, isOther, normal⟩ := exists_formula_of_parts (isPart_of_derives arithmetic)
    (.whole fun operator isHead => Piece.isSign_of_head alternate isHead) accepted
  rw [Formula.ofTokens_of_derives arithmetic] at isOther
  rw [normal, Except.ok.inj isOther]

/-- Blanks around the operators of an arithmetic expression do not change what it is evaluated to, if no fraction
that is written without them is a divisor, an exponent or a base, and none has an approximate factor in front of
it.  Both texts then mean the formula that the precedence of the operators gives. -/
theorem evaluate_compact (arithmetic : Formula.Derives .sum (pieces.map Piece.token) formula)
    (compactAccepted : read workspace (String.ofList (Piece.compactText pieces)) = .ok compact)
    (spacedAccepted : read workspace (String.ofList (Piece.spacedText pieces)) = .ok spaced)
    (apart : Piece.FractionsApart false (Piece.fuse pieces))
    (exact : formula.ExactInFront (Evaluation.ExactPower workspace) []) :
    compact.expression.evaluate workspace = spaced.expression.evaluate workspace ∧
      spaced.expression = formula.normalize := by
  have accepted := Formula.ofTokens_of_derives arithmetic
  have alternate := Formula.alternate_of_ofTokens accepted
  obtain ⟨sound, fused, fusedAccepted, isFused⟩ := exists_fused alternate compactAccepted
  have fuses := Formula.fuses_of_ofTokens sound apart fusedAccepted accepted
  have normal := expression_of_spaced arithmetic alternate spacedAccepted
  rw [isFused, normal]
  exact ⟨Evaluation.evaluate_of_alike (Formula.alikeForms_of_fuses fuses exact).normal, rfl⟩

/-- The pieces of `7-(2^3*3/4-1)*5/6`. -/
def dividedPieces : List Piece :=
  [.numeral (.ofNat 7), .operator .subtract, .leftParen, .numeral (.ofNat 2), .operator .raise, .numeral (.ofNat 3),
    .operator .multiply, .numeral (.ofNat 3), .operator .divide, .numeral (.ofNat 4), .operator .subtract,
    .numeral (.ofNat 1), .rightParen, .operator .multiply, .numeral (.ofNat 5), .operator .divide,
    .numeral (.ofNat 6)]

def innerQuotient : Formula :=
  .binary .divide (.binary .multiply (.binary .raise (.literal 2) (.literal 3)) (.literal 3)) (.literal 4)

def outerQuotient : Formula :=
  .binary .divide (.binary .multiply (.group (.binary .subtract innerQuotient (.literal 1))) (.literal 5)) (.literal 6)

def dividedFormula : Formula :=
  .binary .subtract (.literal 7) outerQuotient

def dividedFused : Formula :=
  .binary .subtract (.literal 7)
    (.binary .multiply
      (.group (.binary .subtract
        (.binary .multiply (.binary .raise (.literal 2) (.literal 3)) (.literal (3 / 4)))
        (.literal 1)))
      (.literal (5 / 6)))

theorem evaluate_compact_divided :
    read .empty "7-(2^3*3/4-1)*5/6" =
        .ok { targets := [], expression := dividedFused.normalize, displayUnit := none } ∧
      read .empty "7 - (2 ^ 3 * 3 / 4 - 1) * 5 / 6" =
        .ok { targets := [], expression := dividedFormula.normalize, displayUnit := none } ∧
      dividedFused.normalize.evaluate .empty = dividedFormula.normalize.evaluate .empty := by
  have isPower : Evaluation.isExactOutcome
      ((Expression.tower [.literal 2, .literal 3]).evaluate .empty) = true := by
    decide +kernel
  have power : (Expression.tower [.literal 2, .literal 3]).Exact (Evaluation.ExactPower .empty) := .tower isPower
  have number (value : Rat) : (Expression.literal value).Exact (Evaluation.ExactPower .empty) := .quantity rfl
  have product : (Expression.chain .product [.tower [.literal 2, .literal 3], .literal 3, .literal 4]
      [.multiply, .divide]).Exact (Evaluation.ExactPower .empty) := by
    refine .chain (by decide) ?_
    simp only [List.forall_mem_cons, List.not_mem_nil, false_implies, implies_true, and_true]
    exact ⟨power, number 3, number 4⟩
  have sum : (Expression.chain .sum [.chain .product [.tower [.literal 2, .literal 3], .literal 3, .literal 4]
      [.multiply, .divide], .literal 1] [.subtract]).Exact (Evaluation.ExactPower .empty) := by
    refine .chain (by decide) ?_
    simp only [List.forall_mem_cons, List.not_mem_nil, false_implies, implies_true, and_true]
    exact ⟨product, number 1⟩
  have inner : innerQuotient.ExactInFront (Evaluation.ExactPower .empty) [] :=
    Formula.exactInFront_quotient ⟨trivial, trivial⟩ (List.forall_mem_singleton.mpr power)
  have outer : outerQuotient.ExactInFront (Evaluation.ExactPower .empty) [] :=
    Formula.exactInFront_quotient ⟨inner, trivial⟩ (List.forall_mem_singleton.mpr sum)
  have apart : Piece.FractionsApart false (Piece.fuse dividedPieces) := by
    simp [dividedPieces, Piece.fuse, Piece.FractionsApart, Piece.tightBehind, Piece.isTight]
  have arithmetic : Formula.Derives .sum (dividedPieces.map Piece.token) dividedFormula :=
    Formula.derives_of_ofTokens rfl
  have compact : read .empty (String.ofList (Piece.compactText dividedPieces)) =
      .ok { targets := [], expression := dividedFused.normalize, displayUnit := none } := rfl
  have spaced : read .empty (String.ofList (Piece.spacedText dividedPieces)) =
      .ok { targets := [], expression := dividedFormula.normalize, displayUnit := none } := rfl
  exact ⟨compact, spaced, (evaluate_compact arithmetic compact spaced apart ⟨trivial, outer⟩).1⟩

/-- The pieces of `2/3^2`. -/
def raisedFraction : List Piece :=
  [.numeral (.ofNat 2), .operator .divide, .numeral (.ofNat 3), .operator .raise, .numeral (.ofNat 2)]

/-- A fraction that is the base of a power is raised as a whole. -/
theorem raisedFraction_differs :
    (∃ formula, Formula.Derives .sum (raisedFraction.map Piece.token) formula) ∧
      String.ofList (Piece.compactText raisedFraction) = "2/3^2" ∧
        String.ofList (Piece.spacedText raisedFraction) = "2 / 3 ^ 2" ∧
          ∃ compact spaced, read .empty "2/3^2" = .ok compact ∧ read .empty "2 / 3 ^ 2" = .ok spaced ∧
            Evaluation.settledAmount? (compact.expression.evaluate .empty) = some (.plain (4 / 9)) ∧
              Evaluation.settledAmount? (spaced.expression.evaluate .empty) = some (.plain (2 / 9)) ∧
                compact.expression.evaluate .empty ≠ spaced.expression.evaluate .empty := by
  have whole : Evaluation.settledAmount? ((Expression.tower [.literal (2 / 3), .literal 2]).evaluate .empty) =
      some (.plain (4 / 9)) := by
    decide +kernel
  have denominator : Evaluation.settledAmount? ((Expression.chain .product
      [.literal 2, .tower [.literal 3, .literal 2]] [.divide]).evaluate .empty) = some (.plain (2 / 9)) := by
    decide +kernel
  have derives : Formula.Derives .sum (raisedFraction.map Piece.token)
      (.binary .divide (.literal 2) (.binary .raise (.literal 3) (.literal 2))) :=
    Formula.derives_of_ofTokens rfl
  refine ⟨⟨_, derives⟩, rfl, rfl,
    { targets := [], expression := .tower [.literal (2 / 3), .literal 2], displayUnit := none },
    { targets := [], expression := .chain .product [.literal 2, .tower [.literal 3, .literal 2]] [.divide],
      displayUnit := none }, rfl, rfl, whole, denominator, fun same => ?_⟩
  have amounts := whole.symm.trans ((congrArg Evaluation.settledAmount? same).trans denominator)
  exact absurd amounts (by decide +kernel)

end Line

end QuantityCalculator
