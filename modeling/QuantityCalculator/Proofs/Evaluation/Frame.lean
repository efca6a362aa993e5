import QuantityCalculator.Proofs.Evaluation.Exact
import QuantityCalculator.Proofs.Evaluation.Flat
import QuantityCalculator.Proofs.Evaluation.Partial

/-!
What an evaluation depends on.

An evaluation that ends in a quantity finds a quantity wherever it comes by.  So it gives the same in another
workspace that has all that it finds, and it comes by nothing that is not found.
-/

namespace QuantityCalculator

/-! ### References outside of towers -/

/-- An expression stands in another one, in none of its towers. -/
inductive Expression.Exposes (exposed : Expression) : Expression → Prop where
  | itself : Exposes exposed exposed
  | operand {precedence : Precedence} {operands : List Expression} {operators : List Operator}
      {operand : Expression} (member : operand ∈ operands) (inside : Exposes exposed operand) :
      Exposes exposed (.chain precedence operands operators)
  | negated {operand : Expression} (inside : Exposes exposed operand) : Exposes exposed (.negation operand)

theorem Expression.Formed.exposed {form : Form} {exposed expression : Expression}
    (formed : expression.Formed form) (exposes : Exposes exposed expression) : exposed.Formed form := by
  induction exposes with
  | itself => exact formed
  | operand member _ ih =>
      cases formed with
      | chain _ _ _ _ parts => exact ih (parts _ member)
  | negated _ ih =>
      cases formed with
      | negation _ part => exact ih part

theorem Workspace.Stores.wellFormed {workspace : Workspace} (stores : workspace.Stores Expression.Regular) :
    workspace.WellFormed :=
  ⟨fun _ _ found => (stores.output found).wellFormed, fun _ _ found => (stores.bound found).wellFormed⟩

namespace Evaluation

variable {workspace first second : Workspace}

/-! ### What an evaluation comes by -/

/-- The evaluation of an expression comes by another one, under whatever active variables. -/
def Meets (workspace : Workspace) (active : List String) (expression met : Expression) : Prop :=
  ∃ others, Relation.ReflTransGen (Calls workspace) (active, expression) (others, met)

private theorem quantity_of_call (stores : workspace.WellFormed) {caller called : List String × Expression}
    (calls : Calls workspace caller called) (wellFormed : caller.2.WellFormed) {depth : Nat}
    {quantity : Quantity} (evaluated : within workspace depth caller.1 caller.2 = .ok (.quantity quantity)) :
    called.2.WellFormed ∧ ∃ depth quantity, within workspace depth called.1 called.2 = .ok (.quantity quantity) := by
  cases depth with
  | zero => cases evaluated
  | succ depth =>
      cases calls with
      | @bound active name bound inactive found =>
          have notActive : ¬active.contains name = true := fun member => inactive (List.elem_iff.mp member)
          simp only [within, if_neg notActive, found] at evaluated
          exact ⟨stores.bindings name bound found, depth, quantity, evaluated⟩
      | @stored active index stored found =>
          simp only [within, found] at evaluated
          exact ⟨stores.outputs index stored found, depth, quantity, evaluated⟩
      | @part active expression operand member =>
          exact ⟨wellFormed.part trivial member, depth, exists_quantity_of_part wellFormed evaluated operand member⟩
      | @exponent active base rest nonempty =>
          obtain ⟨exponent, made, _⟩ := (evaluateTower_cons_iff nonempty).mp evaluated
          refine ⟨?_, depth + 1, exponent, made⟩
          cases wellFormed with
          | tower _ parts =>
              exact .tower trivial fun _ operand member => parts trivial operand (List.mem_cons_of_mem _ member)

private theorem quantity_of_calls (stores : workspace.WellFormed) {caller called : List String × Expression}
    (reaches : Relation.ReflTransGen (Calls workspace) caller called) (wellFormed : caller.2.WellFormed)
    {depth : Nat} {quantity : Quantity}
    (evaluated : within workspace depth caller.1 caller.2 = .ok (.quantity quantity)) :
    called.2.WellFormed ∧ ∃ depth quantity, within workspace depth called.1 called.2 = .ok (.quantity quantity) := by
  -- forwards along the calls: each one makes a quantity because its caller does
  induction reaches with
  | refl => exact ⟨wellFormed, depth, quantity, evaluated⟩
  | tail _ calls ih =>
      obtain ⟨innerWellFormed, innerDepth, value, innerEvaluated⟩ := ih
      exact quantity_of_call stores calls innerWellFormed innerEvaluated

private theorem active_of_calls {caller called : List String × Expression}
    (reaches : Relation.ReflTransGen (Calls workspace) caller called) {name : String} (member : name ∈ caller.1) :
    name ∈ called.1 := by
  induction reaches with
  | refl => exact member
  | tail _ calls ih =>
      cases calls with
      | bound _ _ => exact List.mem_cons_of_mem _ ih
      | _ => exact ih

/-- An evaluation that makes a quantity comes by nothing that makes none. -/
theorem quantity_of_meets (stores : workspace.WellFormed) {active : List String} {expression met : Expression}
    (meets : Meets workspace active expression met) (wellFormed : expression.WellFormed) {depth : Nat}
    {quantity : Quantity} (evaluated : within workspace depth active expression = .ok (.quantity quantity)) :
    ∃ others depth quantity, (∀ name, name ∈ active → name ∈ others) ∧
      within workspace depth others met = .ok (.quantity quantity) := by
  obtain ⟨others, reaches⟩ := meets
  obtain ⟨_, innerDepth, value, innerEvaluated⟩ := quantity_of_calls stores reaches wellFormed evaluated
  exact ⟨others, innerDepth, value, fun name member => active_of_calls reaches member, innerEvaluated⟩

/-! ### Two workspaces -/

/-- Outside of some references the second workspace has all that the first one has.  The variables that are
active only in the second one are among these references. -/
structure AgreesApart (apart : Expression → Prop) (tail : List String) (first second : Workspace) : Prop where
  bindings : ∀ {name bound}, ¬apart (.var name) → first.bindings.find? name = some bound →
    second.bindings.find? name = some bound
  outputs : ∀ {index stored}, ¬apart (.output index) → first.output? index = some stored →
    second.output? index = some stored
  active : ∀ {name}, name ∈ tail → apart (.var name)

variable {apart : Expression → Prop} {tail : List String}

theorem AgreesApart.call (agrees : AgreesApart apart tail first second)
    {caller called : List String × Expression} (outside : ¬apart caller.2) (calls : Calls first caller called) :
    Calls second (caller.1 ++ tail, caller.2) (called.1 ++ tail, called.2) := by
  cases calls with
  | bound inactive found =>
      refine .bound (fun member => ?_) (agrees.bindings outside found)
      exact (List.mem_append.mp member).elim inactive fun inTail => outside (agrees.active inTail)
  | stored found => exact .stored (agrees.outputs outside found)
  | part member => exact .part member
  | exponent nonempty => exact .exponent nonempty

/-- An evaluation in the first workspace goes the same way in the second one, up to such a reference. -/
theorem AgreesApart.calls (agrees : AgreesApart apart tail first second)
    {caller called : List String × Expression} (reaches : Relation.ReflTransGen (Calls first) caller called) :
    Relation.ReflTransGen (Calls second) (caller.1 ++ tail, caller.2) (called.1 ++ tail, called.2) ∨
      ∃ reference, apart reference ∧ Meets second (caller.1 ++ tail) caller.2 reference := by
  -- the calls are the same up to the first reference that the workspaces may differ in
  induction reaches with
  | refl => exact Or.inl .refl
  | @tail reached called _ calls ih =>
      rcases ih with same | met
      · by_cases inside : apart reached.2
        · exact Or.inr ⟨reached.2, inside, _, same⟩
        · exact Or.inl (same.tail (agrees.call inside calls))
      · exact Or.inr met

theorem AgreesApart.meets (agrees : AgreesApart apart tail first second) {active : List String}
    {expression reference : Expression} (inside : apart reference) (meets : Meets first active expression reference) :
    ∃ reference, apart reference ∧ Meets second (active ++ tail) expression reference := by
  obtain ⟨others, reaches⟩ := meets
  rcases agrees.calls reaches with same | met
  · exact ⟨reference, inside, _, same⟩
  · exact met

/-- An evaluation that comes by none of these references makes the same quantity in the second workspace. -/
theorem AgreesApart.quantity (agrees : AgreesApart apart tail first second) {depth : Nat}
    {active : List String} {expression : Expression} {quantity : Quantity}
    (outside : ∀ reference, apart reference → ¬Meets first active expression reference)
    (evaluated : within first depth active expression = .ok (.quantity quantity)) :
    within second depth (active ++ tail) expression = .ok (.quantity quantity) := by
  have simulates : Simulates (fun active others expression => others = active ++ tail ∧
      ∀ reference, apart reference → ¬Meets first active expression reference) first second := by
    have onward : ∀ {caller called : List String × Expression}, Calls first caller called →
        (∀ reference, apart reference → ¬Meets first caller.1 caller.2 reference) →
          ∀ reference, apart reference → ¬Meets first called.1 called.2 reference :=
      fun calls outside reference inside ⟨others, reaches⟩ => outside reference inside ⟨others, reaches.head calls⟩
    constructor
    · rintro active others expression operand ⟨same, outside⟩ member
      exact ⟨same, onward (.part member) outside⟩
    · rintro active others name bound ⟨rfl, outside⟩ inactive found
      have notApart : ¬apart (.var name) := fun inside => outside _ inside ⟨active, .refl⟩
      refine ⟨fun member => ?_, agrees.bindings notApart found, rfl, onward (.bound inactive found) outside⟩
      exact (List.mem_append.mp member).elim inactive fun inTail => notApart (agrees.active inTail)
    · rintro active others index stored ⟨same, outside⟩ found
      have notApart : ¬apart (.output index) := fun inside => outside _ inside ⟨active, .refl⟩
      exact ⟨agrees.outputs notApart found, same, onward (.stored found) outside⟩
  exact within_eq_quantity_of_simulates simulates ⟨rfl, outside⟩ evaluated

end Evaluation

end QuantityCalculator
