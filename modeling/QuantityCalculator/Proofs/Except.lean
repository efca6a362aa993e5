import QuantityCalculator.EvaluationError.Basic

/-!
Computations that may fail.

A computation in steps has a value if all of its steps have one, and fails as the first step does that fails.  An evaluation that can only overflow has a value
unless it does, and one that is checked has a value exactly if it stays in the range of exponents.
-/

namespace QuantityCalculator

section

variable {ε α β : Type} {outcome : Except ε α} {result : β}

theorem bind_eq_ok_iff {next : α → Except ε β} :
    outcome >>= next = .ok result ↔ ∃ value, outcome = .ok value ∧ next value = .ok result := by
  cases outcome with
  | ok value =>
      constructor
      · exact fun made => ⟨value, rfl, made⟩
      · rintro ⟨_, same, made⟩
        rw [← Except.ok.inj same] at made
        exact made
  | error cause =>
      constructor
      · intro fails
        cases fails
      · rintro ⟨_, fails, _⟩
        cases fails

theorem map_eq_ok_iff {next : α → β} :
    outcome.map next = .ok result ↔ ∃ value, outcome = .ok value ∧ next value = result := by
  have asBind : outcome.map next = outcome >>= fun value => .ok (next value) := by
    cases outcome <;> rfl
  rw [asBind, bind_eq_ok_iff]
  simp only [Except.ok.injEq]

end

/-- What holds of the value of a computation if it has one, and what of the cause if it fails. -/
def Settles {ε α : Type} (found : α → Prop) (fails : ε → Prop) : Except ε α → Prop
  | .ok value => found value
  | .error cause => fails cause

theorem Settles.imp {ε α : Type} {found other : α → Prop} {fails otherFails : ε → Prop} {outcome : Except ε α}
    (settles : Settles found fails outcome) (implies : ∀ value, found value → other value)
    (failsToo : ∀ cause, fails cause → otherFails cause) : Settles other otherFails outcome := by
  cases outcome with
  | ok value => exact implies value settles
  | error cause => exact failsToo cause settles

/-- A first step that settles, and a second one that settles whatever the first one has found. -/
theorem Settles.bind {ε α β : Type} {found : α → Prop} {fails : ε → Prop} {foundAfter : β → Prop}
    {failsAfter : ε → Prop} {outcome : Except ε α} {next : α → Except ε β} (first : Settles found fails outcome)
    (second : ∀ value, found value → Settles foundAfter failsAfter (next value))
    (failsToo : ∀ cause, fails cause → failsAfter cause) : Settles foundAfter failsAfter (outcome >>= next) := by
  cases outcome with
  | ok value => exact second value first
  | error cause => exact failsToo cause first

/-! ### Evaluations that may leave the range of exponents -/

namespace Evaluation

/-- What holds of the value of an evaluation if it has one; if not, a dimension has left its range. -/
def UnlessOverflow {α : Type} (holds : α → Prop) : Except EvaluationError α → Prop
  | .ok value => holds value
  | .error cause => cause = .overflow

namespace UnlessOverflow

variable {α β : Type} {holds : α → Prop}

theorem imp {other : α → Prop} {outcome : Except EvaluationError α}
    (first : UnlessOverflow holds outcome) (implies : ∀ value, holds value → other value) :
    UnlessOverflow other outcome := by
  cases outcome with
  | ok value => exact implies value first
  | error cause => exact first

theorem bind {other : β → Prop} {outcome : Except EvaluationError α}
    {next : α → Except EvaluationError β} (first : UnlessOverflow holds outcome)
    (second : ∀ value, holds value → UnlessOverflow other (next value)) :
    UnlessOverflow other (outcome >>= next) := by
  cases outcome with
  | ok value => exact second value first
  | error cause => exact first

theorem settled {outcome : Except EvaluationError α} (first : UnlessOverflow holds outcome) :
    outcome ≠ .error .endlessReference := by
  intro endless
  rw [endless] at first
  cases first

theorem ok_of_ne {outcome : Except EvaluationError α} (first : UnlessOverflow holds outcome)
    (inRange : outcome ≠ .error .overflow) : ∃ value, outcome = .ok value ∧ holds value := by
  cases outcome with
  | ok value => exact ⟨value, rfl, first⟩
  | error cause =>
      have isOverflow : cause = .overflow := first
      exact absurd (congrArg Except.error isOverflow) inRange

end UnlessOverflow

/-- The value of an evaluation that stays in the range of exponents, and an overflow of one that does not. -/
def OrOverflow {α : Type} (inRange : Prop) (holds : α → Prop) : Except EvaluationError α → Prop
  | .ok value => inRange ∧ holds value
  | .error cause => ¬inRange ∧ cause = .overflow

namespace OrOverflow

variable {α β : Type} {inRange : Prop} {holds : α → Prop} {outcome : Except EvaluationError α}

theorem unlessOverflow (checked : OrOverflow inRange holds outcome) : UnlessOverflow holds outcome := by
  cases outcome with
  | ok value => exact checked.2
  | error cause => exact checked.2

/-- Only the first of two steps leaves the range. -/
theorem bind {other : β → Prop} {next : α → Except EvaluationError β} (checked : OrOverflow inRange holds outcome)
    (second : ∀ value, holds value → ∃ result, next value = .ok result ∧ other result) :
    OrOverflow inRange other (outcome >>= next) := by
  cases outcome with
  | ok value =>
      obtain ⟨result, computed, isOther⟩ := second value checked.2
      change OrOverflow inRange other (next value)
      rw [computed]
      exact ⟨checked.1, isOther⟩
  | error cause => exact checked

theorem eq_ok_iff {value other : α} (checked : OrOverflow inRange (· = value) outcome) :
    outcome = .ok other ↔ other = value ∧ inRange := by
  cases outcome with
  | ok result =>
      obtain ⟨inside, rfl⟩ := checked
      constructor
      · intro same
        exact ⟨(Except.ok.inj same).symm, inside⟩
      · rintro ⟨rfl, _⟩
        rfl
  | error cause =>
      constructor
      · intro fails
        cases fails
      · rintro ⟨_, inside⟩
        exact absurd inside checked.1

end OrOverflow

end Evaluation

end QuantityCalculator
