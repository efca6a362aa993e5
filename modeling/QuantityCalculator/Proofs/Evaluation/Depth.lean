import Mathlib.Data.List.Perm.Subperm
import QuantityCalculator.Evaluation

/-!
Depths that suffice.

An evaluation that comes to an end within some depth comes to the same end within every greater depth, and
within the depth that is chosen for it.  So a reference is endless only if no depth leads to its end.
-/

namespace QuantityCalculator

/-! ### Heights of parts -/

namespace Expression

theorem height_le_heightOfList {operand : Expression} {operands : List Expression}
    (member : operand ∈ operands) : operand.height ≤ heightOfList operands := by
  induction operands with
  | nil => cases member
  | cons first rest ih =>
      rcases List.mem_cons.mp member with same | later
      · subst same
        exact Nat.le_max_left _ _
      · exact Nat.le_trans (ih later) (Nat.le_max_right _ _)

end Expression

namespace Bindings

/-- A binding that is found is one of those listed. -/
theorem mem_of_find? {bindings : Bindings} {name : String} {bound : Expression}
    (found : bindings.find? name = some bound) : (name, bound) ∈ bindings := by
  unfold find? at found
  induction bindings with
  | nil => cases found
  | cons binding rest ih =>
      obtain ⟨other, value⟩ := binding
      rw [List.lookup_cons] at found
      split at found
      · rename_i same
        rw [eq_of_beq same, ← Option.some.inj found]
        exact List.mem_cons_self
      · exact List.mem_cons_of_mem _ (ih found)

end Bindings

namespace Workspace

/-- A result that is found has an index from one to the number of results. -/
theorem output?_eq_some {workspace : Workspace} {index : Nat} {stored : Expression}
    (found : workspace.output? index = some stored) :
    0 < index ∧ index ≤ workspace.outputs.length ∧ stored ∈ workspace.outputs := by
  unfold output? at found
  split at found
  · cases found
  · obtain ⟨inside, _⟩ := List.getElem?_eq_some_iff.mp found
    exact ⟨by omega, by omega, List.mem_of_getElem? found⟩

theorem exists_output {workspace : Workspace} {index : Nat}
    (bounds : 0 < index ∧ index < workspace.outputs.length + 1) :
    ∃ stored, workspace.output? index = some stored := by
  have inside : index - 1 < workspace.outputs.length := by omega
  refine ⟨workspace.outputs[index - 1], ?_⟩
  rw [output?, if_neg (by omega), List.getElem?_eq_getElem inside]

def storedHeight (workspace : Workspace) : Nat :=
  max (Expression.heightOfList workspace.outputs)
    (Expression.heightOfList (workspace.bindings.map Prod.snd))

private theorem height_le_of_find? {workspace : Workspace} {name : String} {bound : Expression}
    (found : workspace.bindings.find? name = some bound) :
    bound.height ≤ workspace.storedHeight := by
  have member : bound ∈ workspace.bindings.map Prod.snd :=
    List.mem_map.mpr ⟨(name, bound), Bindings.mem_of_find? found, rfl⟩
  exact Nat.le_trans (Expression.height_le_heightOfList member) (Nat.le_max_right _ _)

private theorem height_le_of_output? {workspace : Workspace} {index : Nat} {stored : Expression}
    (found : workspace.output? index = some stored) :
    stored.height ≤ workspace.storedHeight :=
  Nat.le_trans (Expression.height_le_heightOfList (output?_eq_some found).2.2) (Nat.le_max_left _ _)

end Workspace

namespace Evaluation

/-! ### Outcomes that were cut short -/

/-- The first outcome is the second one, unless it was cut short. -/
def Refines {α : Type} (shallow deep : Except EvaluationError α) : Prop :=
  shallow = .error .endlessReference ∨ shallow = deep

namespace Refines

variable {α β γ : Type}

theorem refl (outcome : Except EvaluationError α) : Refines outcome outcome :=
  Or.inr rfl

theorem trans {shallow middle deep : Except EvaluationError α} (first : Refines shallow middle)
    (second : Refines middle deep) : Refines shallow deep := by
  rcases first with cut | same
  · exact Or.inl cut
  · rw [same]
    exact second

theorem eq_of_ne {shallow deep : Except EvaluationError α} (refines : Refines shallow deep)
    (settled : shallow ≠ .error .endlessReference) : deep = shallow :=
  (refines.resolve_left settled).symm

theorem cut {shallow deep : Except EvaluationError α} (refines : Refines shallow deep)
    (endless : deep = .error .endlessReference) : shallow = .error .endlessReference := by
  rcases refines with cut | same
  · exact cut
  · rw [same, endless]

theorem bind {shallow deep : Except EvaluationError α} {f g : α → Except EvaluationError β}
    (outcome : Refines shallow deep) (next : ∀ value, Refines (f value) (g value)) :
    Refines (shallow >>= f) (deep >>= g) := by
  rcases outcome with cut | same
  · rw [cut]
    exact Or.inl rfl
  · rw [same]
    cases deep with
    | error cause => exact Or.inr rfl
    | ok value => exact next value

theorem map {shallow deep : Except EvaluationError α} (outcome : Refines shallow deep) (f : α → β) :
    Refines (shallow.map f) (deep.map f) := by
  rcases outcome with cut | same
  · rw [cut]
    exact Or.inl rfl
  · rw [same]
    exact refl _

theorem foldlM {f g : β → γ → Except EvaluationError β} (steps : List γ)
    (each : ∀ step, step ∈ steps → ∀ value, Refines (f value step) (g value step)) (start : β) :
    Refines (steps.foldlM f start) (steps.foldlM g start) := by
  induction steps generalizing start with
  | nil => exact refl _
  | cons step rest ih =>
      rw [List.foldlM_cons, List.foldlM_cons]
      apply bind (each step List.mem_cons_self start)
      intro value
      exact ih (fun later member => each later (List.mem_cons_of_mem _ member)) value

end Refines

variable {shallow deep : Expression → Except EvaluationError Expression}

private theorem foldChain_refines (operators : List Operator) (operands : List Expression)
    (each : ∀ operand, operand ∈ operands → Refines (shallow operand) (deep operand)) :
    Refines (foldChain shallow operators operands) (foldChain deep operators operands) := by
  unfold foldChain
  apply Refines.bind
  · apply Refines.foldlM
    intro step member folded
    exact Refines.bind (each step.2 (List.of_mem_zip member).2) fun operand => Refines.refl _
  · intro folded
    exact Refines.refl _

private theorem foldTower_refines (exponent : Quantity) (operands : List Expression)
    (each : ∀ operand, operand ∈ operands → Refines (shallow operand) (deep operand)) :
    Refines (foldTower shallow exponent operands) (foldTower deep exponent operands) := by
  induction operands generalizing exponent with
  | nil => exact Refines.refl _
  | cons operand earlier ih =>
      unfold foldTower
      apply Refines.bind (each operand List.mem_cons_self)
      intro value
      cases value with
      | quantity base =>
          apply Refines.bind (Refines.refl _)
          intro power
          exact ih power fun other member => each other (List.mem_cons_of_mem _ member)
      | _ => exact Refines.refl _

private theorem evaluateTower_refines (operands : List Expression)
    (each : ∀ operand, operand ∈ operands → Refines (shallow operand) (deep operand)) :
    Refines (evaluateTower shallow operands) (evaluateTower deep operands) := by
  have eachReversed : ∀ operand, operand ∈ operands.reverse → Refines (shallow operand) (deep operand) :=
    fun operand member => each operand (List.mem_reverse.mp member)
  unfold evaluateTower
  cases reversed : operands.reverse with
  | nil => exact Refines.refl _
  | cons last earlier =>
      rw [reversed] at eachReversed
      apply Refines.bind (eachReversed last List.mem_cons_self)
      intro value
      cases value with
      | quantity exponent =>
          apply Refines.bind
          · exact foldTower_refines exponent earlier
              fun operand member => eachReversed operand (List.mem_cons_of_mem _ member)
          · intro result
            exact Refines.refl _
      | _ => exact Refines.refl _

/-! ### Greater depths -/

/-- One more step of depth refines an outcome, provided that it does so for all that is evaluated on the
way. -/
theorem within_succ_refines (workspace : Workspace) (shallow deep : Nat) (active : List String)
    (expression : Expression)
    (bound : ∀ name value, name ∉ active → workspace.bindings.find? name = some value →
      expression = .var name →
        Refines (within workspace shallow (name :: active) value)
          (within workspace deep (name :: active) value))
    (stored : ∀ index value, workspace.output? index = some value → expression = .output index →
      Refines (within workspace shallow active value) (within workspace deep active value))
    (part : ∀ operand, operand.height < expression.height →
      Refines (within workspace shallow active operand) (within workspace deep active operand)) :
    Refines (within workspace (shallow + 1) active expression)
      (within workspace (deep + 1) active expression) := by
  cases expression with
  | quantity value => exact Refines.refl _
  | var name =>
      by_cases isActive : active.contains name = true
      · simp only [within, if_pos isActive]
        exact Refines.refl _
      · simp only [within, if_neg isActive]
        cases found : workspace.bindings.find? name with
        | none => exact Refines.refl _
        | some value => exact bound name value (by simpa using isActive) found rfl
  | output index =>
      simp only [within]
      cases found : workspace.output? index with
      | none => exact Refines.refl _
      | some value => exact stored index value found rfl
  | chain precedence operands operators =>
      apply foldChain_refines
      intro operand member
      exact part operand (Nat.lt_succ_of_le (Expression.height_le_heightOfList member))
  | tower operands =>
      apply evaluateTower_refines
      intro operand member
      exact part operand (Nat.lt_succ_of_le (Expression.height_le_heightOfList member))
  | negation operand =>
      exact Refines.map (part operand (Nat.lt_succ_self _)) Expression.negate

private theorem within_refines_succ (workspace : Workspace) (depth : Nat) (active : List String)
    (expression : Expression) :
    Refines (within workspace depth active expression)
      (within workspace (depth + 1) active expression) := by
  induction depth generalizing active expression with
  | zero => exact Or.inl rfl
  | succ depth ih =>
      apply within_succ_refines
      · intro name value _ _ _
        exact ih (name :: active) value
      · intro index value _ _
        exact ih active value
      · intro operand _
        exact ih active operand

theorem within_refines (workspace : Workspace) {depth deeper : Nat} (le : depth ≤ deeper)
    (active : List String) (expression : Expression) :
    Refines (within workspace depth active expression)
      (within workspace deeper active expression) := by
  induction le with
  | refl => exact Refines.refl _
  | step _ ih => exact Refines.trans ih (within_refines_succ workspace _ active expression)

/-- An outcome that was not cut short stays the same at greater depths. -/
theorem within_eq_of_le (workspace : Workspace) {depth deeper : Nat} (le : depth ≤ deeper)
    {active : List String} {expression : Expression}
    (settled : within workspace depth active expression ≠ .error .endlessReference) :
    within workspace deeper active expression = within workspace depth active expression :=
  Refines.eq_of_ne (within_refines workspace le active expression) settled

/-! ### The sufficient depth -/

def unentered (workspace : Workspace) (active : List String) : Nat :=
  (workspace.bindings.filter fun binding => !active.contains binding.1).length

theorem unentered_lt {workspace : Workspace} {active : List String} {name : String}
    {bound : Expression} (inactive : name ∉ active)
    (found : workspace.bindings.find? name = some bound) :
    unentered workspace (name :: active) < unentered workspace active := by
  have entered : (workspace.bindings.filter fun binding => !(name :: active).contains binding.1) =
      (workspace.bindings.filter fun binding => !active.contains binding.1).filter
        fun binding => binding.1 != name := by
    rw [List.filter_filter]
    apply List.filter_congr
    intro binding _
    rw [List.contains_cons, Bool.not_or]
    rfl
  unfold unentered
  rw [entered, List.length_filter_lt_length_iff_exists]
  refine ⟨(name, bound), ?_, by simp⟩
  rw [List.mem_filter]
  exact ⟨Bindings.mem_of_find? found, by simpa using inactive⟩

/-- The depth that is spent on one expression, and on a reference to it. -/
def span (workspace : Workspace) : Nat :=
  workspace.storedHeight + 1

/-- A depth that suffices when the variables in `active` and the results in `visited`, the latter all under
the same active variables, will not be entered again. -/
def enough (workspace : Workspace) (active : List String) (visited : List Nat)
    (expression : Expression) : Nat :=
  unentered workspace active * ((workspace.outputs.length + 2) * span workspace) +
    (workspace.outputs.length - visited.length) * span workspace + expression.height

private theorem height_pos (expression : Expression) : 0 < expression.height := by
  cases expression <;> simp [Expression.height]

private theorem enough_var {workspace : Workspace} {active : List String} (visited : List Nat)
    {name : String} {bound : Expression} (inactive : name ∉ active)
    (found : workspace.bindings.find? name = some bound) :
    enough workspace (name :: active) [] bound + 1 ≤ enough workspace active visited (.var name) := by
  have fewer := unentered_lt inactive found
  have height := Workspace.height_le_of_find? found
  obtain ⟨rest, total⟩ := Nat.exists_eq_add_of_lt fewer
  have expanded : unentered workspace active * ((workspace.outputs.length + 2) * span workspace) =
      unentered workspace (name :: active) * ((workspace.outputs.length + 2) * span workspace) +
        rest * ((workspace.outputs.length + 2) * span workspace) +
        (workspace.outputs.length * span workspace + 2 * span workspace) := by
    rw [total, Nat.add_mul, Nat.add_mul, Nat.one_mul, Nat.add_mul]
  unfold enough
  rw [expanded, List.length_nil, Nat.sub_zero]
  simp only [Expression.height]
  unfold span
  omega

private theorem enough_output {workspace : Workspace} (active : List String) (visited : List Nat)
    {index : Nat} {stored : Expression} (room : visited.length < workspace.outputs.length)
    (found : workspace.output? index = some stored) :
    enough workspace active (index :: visited) stored + 1 ≤
      enough workspace active visited (.output index) := by
  have height := Workspace.height_le_of_output? found
  have one : workspace.outputs.length - visited.length =
      (workspace.outputs.length - (index :: visited).length) + 1 := by
    rw [List.length_cons]
    omega
  have expanded : (workspace.outputs.length - visited.length) * span workspace =
      (workspace.outputs.length - (index :: visited).length) * span workspace + span workspace := by
    rw [one, Nat.add_mul, Nat.one_mul]
  unfold enough
  rw [expanded]
  simp only [Expression.height]
  unfold span
  omega

private theorem enough_part (workspace : Workspace) (active : List String) (visited : List Nat)
    {operand expression : Expression} (lower : operand.height < expression.height) :
    enough workspace active visited operand + 1 ≤ enough workspace active visited expression := by
  unfold enough
  omega

/-- The depth at which an outcome stops being cut short. -/
theorem exists_last_cut {workspace : Workspace} {depth : Nat} {active : List String}
    {expression : Expression}
    (settled : within workspace depth active expression ≠ .error .endlessReference) :
    ∃ last, last < depth ∧
      within workspace last active expression = .error .endlessReference ∧
      within workspace (last + 1) active expression ≠ .error .endlessReference := by
  induction depth with
  | zero => exact absurd rfl settled
  | succ depth ih =>
      by_cases cut : within workspace depth active expression = .error .endlessReference
      · exact ⟨depth, Nat.lt_succ_self _, cut, settled⟩
      · obtain ⟨last, before, atLast, after⟩ := ih cut
        exact ⟨last, Nat.lt_succ_of_lt before, atLast, after⟩

/-- Distinct indices of results are no more than the results. -/
theorem length_visited_le {workspace : Workspace} {visited : List Nat} (distinct : visited.Nodup)
    (inside : ∀ index, index ∈ visited → 0 < index ∧ index ≤ workspace.outputs.length) :
    visited.length ≤ workspace.outputs.length := by
  have within : visited ⊆ List.range' 1 workspace.outputs.length := by
    intro index member
    obtain ⟨positive, bounded⟩ := inside index member
    rw [List.mem_range'_1]
    omega
  have shorter := (List.subperm_of_subset distinct within).length_le
  rwa [List.length_range'] at shorter

/-- The results in `visited` are those that are being evaluated under the same active variables; at one
step less than the depth at hand, all of them are cut short.  A result that comes to an end at this depth
is therefore none of them, which bounds how many can follow. -/
theorem within_refines_enough (workspace : Workspace) (depth : Nat) (active : List String)
    (visited : List Nat) (expression : Expression) (distinct : visited.Nodup)
    (inside : ∀ index, index ∈ visited → 0 < index ∧ index ≤ workspace.outputs.length)
    (cut : ∀ index, index ∈ visited → ∀ stored, workspace.output? index = some stored →
      within workspace (depth - 1) active stored = .error .endlessReference) :
    Refines (within workspace depth active expression)
      (within workspace (enough workspace active visited expression) active expression) := by
  induction depth using Nat.strongRecOn generalizing active visited expression with
  | ind depth ih =>
      cases depth with
      | zero => exact Or.inl rfl
      | succ depth =>
          have positive : 0 < enough workspace active visited expression :=
            Nat.lt_of_lt_of_le (height_pos expression) (Nat.le_add_left _ _)
          obtain ⟨deep, deepEq⟩ := Nat.exists_eq_add_of_lt positive
          rw [Nat.zero_add] at deepEq
          rw [deepEq]
          apply within_succ_refines
          · intro name value inactive found isVar
            subst isVar
            have room := enough_var visited inactive found
            apply Refines.trans (ih depth (Nat.lt_succ_self _) (name :: active) [] value
              List.nodup_nil (fun _ member => by cases member) (fun _ member => by cases member))
            exact within_refines workspace (by omega) (name :: active) value
          · intro index value found isOutput
            subst isOutput
            by_cases endless : within workspace depth active value = .error .endlessReference
            · exact Or.inl endless
            · obtain ⟨last, before, atLast, after⟩ := exists_last_cut endless
              have fresh : index ∉ visited := fun member => endless (cut index member value found)
              have distinctNow : (index :: visited).Nodup := List.nodup_cons.mpr ⟨fresh, distinct⟩
              have bounds := Workspace.output?_eq_some found
              have insideNow : ∀ other, other ∈ index :: visited →
                  0 < other ∧ other ≤ workspace.outputs.length := by
                intro other member
                rcases List.mem_cons.mp member with same | earlier
                · subst same
                  exact ⟨bounds.1, bounds.2.1⟩
                · exact inside other earlier
              have cutNow : ∀ other, other ∈ index :: visited → ∀ stored,
                  workspace.output? other = some stored →
                    within workspace (last + 1 - 1) active stored = .error .endlessReference := by
                intro other member stored storedAt
                rcases List.mem_cons.mp member with same | earlier
                · subst same
                  rw [found] at storedAt
                  rw [← Option.some.inj storedAt]
                  exact atLast
                · exact Refines.cut (within_refines workspace (by omega) active stored)
                    (cut other earlier stored storedAt)
              have count := length_visited_le distinctNow insideNow
              have room := enough_output active visited
                (by rw [List.length_cons] at count; omega) found
              have same : within workspace depth active value =
                  within workspace (last + 1) active value :=
                within_eq_of_le workspace before after
              rw [same]
              apply Refines.trans (ih (last + 1) (by omega) active (index :: visited) value
                distinctNow insideNow cutNow)
              exact within_refines workspace (by omega) active value
          · intro operand lower
            have room := enough_part workspace active visited lower
            apply Refines.trans (ih depth (Nat.lt_succ_self _) active visited operand distinct inside ?_)
            · exact within_refines workspace (by omega) active operand
            · intro index member stored storedAt
              exact Refines.cut (within_refines workspace (by omega) active stored)
                (cut index member stored storedAt)

private theorem enough_le_sufficientDepth (workspace : Workspace) (expression : Expression) :
    enough workspace [] [] expression ≤ sufficientDepth workspace expression := by
  have all : unentered workspace [] = workspace.bindings.length := by
    unfold unentered
    exact congrArg List.length (List.filter_eq_self.mpr fun binding _ => rfl)
  have heights : workspace.height expression = max expression.height workspace.storedHeight := rfl
  have stored : span workspace ≤ workspace.height expression + 1 := by
    unfold span
    omega
  have perPhase : workspace.bindings.length * ((workspace.outputs.length + 2) * span workspace) ≤
      workspace.bindings.length * ((workspace.outputs.length + 2) * (workspace.height expression + 1)) :=
    Nat.mul_le_mul_left _ (Nat.mul_le_mul_left _ stored)
  have lastPhase : workspace.outputs.length * span workspace + expression.height ≤
      (workspace.outputs.length + 2) * (workspace.height expression + 1) := by
    have outputs := Nat.mul_le_mul_left workspace.outputs.length stored
    rw [Nat.add_mul]
    omega
  have total : sufficientDepth workspace expression =
      workspace.bindings.length * ((workspace.outputs.length + 2) * (workspace.height expression + 1)) +
        (workspace.outputs.length + 2) * (workspace.height expression + 1) := by
    unfold sufficientDepth
    rw [Nat.mul_assoc, Nat.add_mul _ 1, Nat.one_mul]
  unfold enough
  rw [total, all, List.length_nil, Nat.sub_zero]
  omega

/-- Whatever end an evaluation comes to at some depth is the outcome of the expression. -/
theorem within_refines_evaluate (workspace : Workspace) (depth : Nat) (expression : Expression) :
    Refines (within workspace depth [] expression) (expression.evaluate workspace) := by
  apply Refines.trans (within_refines_enough workspace depth [] [] expression List.nodup_nil
    (fun _ member => by cases member) (fun _ member => by cases member))
  exact within_refines workspace (enough_le_sufficientDepth workspace expression) [] expression

theorem evaluate_eq_within {workspace : Workspace} {depth : Nat} {expression : Expression}
    (settled : within workspace depth [] expression ≠ .error .endlessReference) :
    expression.evaluate workspace = within workspace depth [] expression :=
  Refines.eq_of_ne (within_refines_evaluate workspace depth expression) settled

end Evaluation

end QuantityCalculator
