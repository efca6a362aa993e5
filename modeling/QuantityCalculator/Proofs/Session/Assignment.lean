import QuantityCalculator.Proofs.Evaluation.Frame
import QuantityCalculator.Proofs.Session.Reachable

/-!
The value of a variable that has been assigned to.

What is stored is what is left of the expression on the line.  Once the other variables are bound it has the
value of the expression, unless a tower that was left as it was written refers to the variable itself: a variable
is not looked up inside its own expression.
-/

namespace QuantityCalculator

open Evaluation (AgreesApart Meets StaysExact)

/-- A workspace that has kept all that is stored in another one, and has bound further variables as a third one
does. -/
structure Workspace.Continues (final after full : Workspace) : Prop where
  outputs : ∃ more, final.outputs = after.outputs ++ more
  kept : ∀ name bound, after.bindings.find? name = some bound → final.bindings.find? name = some bound
  further : ∀ name bound, after.bindings.find? name = none → full.bindings.find? name = some bound →
    final.bindings.find? name = some bound

theorem Workspace.output?_append {longer shorter : Workspace} {more : List Expression}
    (outputs : longer.outputs = shorter.outputs ++ more) {index : Nat} {stored : Expression}
    (found : shorter.output? index = some stored) : longer.output? index = some stored := by
  obtain ⟨positive, inside, _⟩ := output?_eq_some found
  unfold output? at found ⊢
  rw [if_neg (by omega)] at found ⊢
  rw [outputs, List.getElem?_append_left (by omega)]
  exact found

namespace Session

/-- A line assigns an expression to a variable that has a value, and then the unbound variables of the expression
are bound as in the full workspace, in which it has a value. -/
structure Assigns (before full final : Workspace) (files : Files) (line name : String)
    (expression : Expression) (value : Quantity) : Prop where
  known : ∃ current, before.bindings.find? name = some (.quantity current)
  isExpression : IsExpression line.toList
  written : ∃ unit, Line.read before (String.ofList (Text.trim line.toList)) =
    .ok { targets := [name], expression, displayUnit := unit }
  succeeds : (enter files before line).failure = none
  completes : full.Completes before
  evaluated : expression.evaluate full = .ok (.quantity value)
  wellFormed : final.WellFormed
  continues : final.Continues (enter files before line).workspace full

variable {before full final : Workspace} {files : Files} {line name : String} {expression stored : Expression}
  {value : Quantity} {total : Amount}

private theorem exists_stored {targets : List String} {unit : Option DisplayUnit}
    (isExpression : IsExpression line.toList)
    (written : Line.read before (String.ofList (Text.trim line.toList)) =
      .ok { targets, expression, displayUnit := unit })
    (succeeds : (enter files before line).failure = none) :
    ∃ stored, expression.evaluate before = .ok stored ∧
      (enter files before line).workspace = store before targets stored := by
  have isRun : enter files before line = runExpression before (Text.trim line.toList) :=
    enterNested_of_isExpression isExpression files files.nesting before
  rw [isRun] at succeeds ⊢
  have effect := runExpression_effect before (Text.trim line.toList)
  generalize runExpression before (Text.trim line.toList) = outcome at succeeds effect ⊢
  cases effect with
  | failed _ _ => cases succeeds
  | stored shown lines accepted evaluated =>
      rw [written] at accepted
      cases accepted
      exact ⟨_, evaluated, rfl⟩

private theorem Assigns.exists_stored (assigns : Assigns before full final files line name expression value) :
    ∃ stored, expression.evaluate before = .ok stored ∧
      (enter files before line).workspace = store before [name] stored := by
  obtain ⟨unit, written⟩ := assigns.written
  exact Session.exists_stored assigns.isExpression written assigns.succeeds

private theorem find?_store_self (before : Workspace) (name : String) (stored : Expression) :
    (store before [name] stored).bindings.find? name = some stored :=
  Bindings.find?_bind_self name stored before.bindings

private theorem find?_store_of_ne {other : String} (different : other ≠ name) (before : Workspace)
    (stored : Expression) :
    (store before [name] stored).bindings.find? other = before.bindings.find? other :=
  Bindings.find?_bind_of_ne name other stored before.bindings different

/-- A variable with a value does not stand in what is stored, except in towers. -/
theorem Assigns.not_exposes (assigns : Assigns before full final files line name expression value)
    (stores : before.Stores Expression.Regular) (isStored : expression.evaluate before = .ok stored) :
    ¬Expression.Exposes (.var name) stored := by
  obtain ⟨unit, written⟩ := assigns.written
  have keeps : Evaluation.Keeps before (.flat fun _ => True) (.flat (· ≠ .var name)) := by
    refine ⟨fun _ => trivial, id, fun other _ => ?_, fun _ _ => Or.inl nofun, fun _ _ => .tower nofun nofun⟩
    by_cases same : other = name
    · rw [same]
      exact Or.inr assigns.known
    · exact Or.inl fun isName => same (Expression.var.inj isName)
  have result := Evaluation.within_formed keeps (fun _ _ found => (stores.bound found).flat)
    (fun _ _ found => (stores.output found).flat) (fun _ member => (List.not_mem_nil member).elim)
    (Line.regular_of_read written).flat isStored
  intro exposes
  cases result.exposed exposes with
  | var _ isOther => exact isOther rfl

private theorem Assigns.evaluate_stored (assigns : Assigns before full final files line name expression value)
    (exact : StaysExact full [] expression) (stores : before.Stores Expression.Regular)
    (isStored : expression.evaluate before = .ok stored)
    (inRange : stored.evaluate full ≠ .error .overflow) : stored.evaluate full = .ok (.quantity value) := by
  obtain ⟨unit, written⟩ := assigns.written
  have wellFormed : expression.WellFormed := (Line.regular_of_read written).wellFormed
  obtain ⟨amount, means, rfl⟩ := Evaluation.amount_of_quantity wellFormed exact assigns.evaluated
  -- what is left over means what the expression means, but is added up in another order
  have partly := Evaluation.within_part_renders stores.wellFormed assigns.completes wellFormed exact
    assigns.evaluated means []
  rw [← Evaluation.evaluate_eq_within partly.settled, isStored] at partly
  have later := Evaluation.evaluate_of_amount? partly.wellFormed partly.meaning
  obtain ⟨result, isResult, rfl⟩ := later.ok_of_ne inRange
  exact isResult

/-- The workspace in the end has all that the full one has, except for the variable that is assigned to. -/
theorem Assigns.agrees (assigns : Assigns before full final files line name expression value) :
    AgreesApart (· = .var name) [name] full final := by
  obtain ⟨stored, _, isAfter⟩ := assigns.exists_stored
  have continues := assigns.continues
  rw [isAfter] at continues
  refine ⟨?_, ?_, ?_⟩
  · intro other bound isOther found
    have different : other ≠ name := fun same => isOther (congrArg Expression.var same)
    have unchanged := find?_store_of_ne different before stored
    cases foundBefore : before.bindings.find? other with
    | none => exact continues.further other bound (unchanged.trans foundBefore) found
    | some earlier =>
        rw [assigns.completes.bound other earlier foundBefore] at found
        rw [← Option.some.inj found]
        exact continues.kept other earlier (unchanged.trans foundBefore)
  · intro index result _ found
    obtain ⟨more, outputs⟩ := continues.outputs
    have all : final.outputs = full.outputs ++ ([stored] ++ more) := by
      rw [outputs, assigns.completes.outputs, ← List.append_assoc]
      rfl
    exact Workspace.output?_append all found
  · intro other member
    rw [List.mem_singleton.mp member]

/-- In the end the variable has no value if the evaluation of what was stored for it comes by the variable again,
which it can only do in a tower.  If it does not, the variable has the value of the expression that it was assigned,
as long as all numbers on the way to that value are exact and no exponent leaves its range once the known operands
stand in front. -/
theorem evaluate_assigned_iff (reachable : Reachable before)
    (assigns : Assigns before full final files line name expression value) :
    ∃ stored, (enter files before line).workspace.bindings.find? name = some stored ∧
      ¬Expression.Exposes (.var name) stored ∧
      (Meets final [name] stored (.var name) → ∀ other,
        (Expression.var name).evaluate final ≠ .ok (.quantity other)) ∧
      (StaysExact full [] expression → stored.evaluate full ≠ .error .overflow →
        ((Expression.var name).evaluate final = .ok (.quantity value) ↔
          ¬Meets final [name] stored (.var name))) := by
  have stores := reachable.stores regular_kept
  obtain ⟨stored, isStored, isAfter⟩ := assigns.exists_stored
  have found : (enter files before line).workspace.bindings.find? name = some stored := by
    rw [isAfter]
    exact find?_store_self before name stored
  have foundFinal := assigns.continues.kept name stored found
  -- the variable is active while what was stored for it is evaluated
  have entered : ∀ depth, Evaluation.within final (depth + 1) [] (.var name) =
      Evaluation.within final depth [name] stored := by
    intro depth
    simp only [Evaluation.within, List.contains_nil, Bool.false_eq_true, if_false, foundFinal]
  have lost : Meets final [name] stored (.var name) → ∀ other,
      (Expression.var name).evaluate final ≠ .ok (.quantity other) := by
    intro meets other evaluated
    change Evaluation.within final (Evaluation.sufficientDepth final (.var name)) [] (.var name) = _ at evaluated
    cases depth : Evaluation.sufficientDepth final (.var name) with
    | zero =>
        rw [depth] at evaluated
        cases evaluated
    | succ depth =>
        rw [depth, entered] at evaluated
        obtain ⟨others, inner, quantity, active, again⟩ := Evaluation.quantity_of_meets assigns.wellFormed meets
          (assigns.wellFormed.bindings name stored foundFinal) evaluated
        -- by then it is left as it is
        cases inner with
        | zero => cases again
        | succ inner =>
            simp only [Evaluation.within, if_pos (List.elem_iff.mpr (active name List.mem_cons_self))] at again
            cases again
  refine ⟨stored, found, assigns.not_exposes stores isStored, lost, fun exact inRange => ?_⟩
  refine ⟨fun same meets => lost meets value same, fun apart => ?_⟩
  have outside : ∀ reference, reference = Expression.var name → ¬Meets full [] stored reference := by
    rintro reference rfl meets
    obtain ⟨_, rfl, meetsFinal⟩ := assigns.agrees.meets rfl meets
    exact apart meetsFinal
  have again := assigns.agrees.quantity outside
    (assigns.evaluate_stored exact stores isStored inRange)
  have whole : Evaluation.within final (Evaluation.sufficientDepth full stored + 1) [] (.var name) =
      .ok (.quantity value) := (entered _).trans again
  exact Evaluation.evaluate_of_quantity whole

/-! ### One more variable -/

def withVariable (before : Workspace) (name : String) (amount : Amount) : Workspace :=
  { before with bindings := before.bindings.bind name (.quantity amount.quantity) }

private theorem continues_store {other : String} (before : Workspace) (stored : Expression) (amount : Amount)
    (known : ∃ current, before.bindings.find? name = some current)
    (unbound : before.bindings.find? other = none) :
    Workspace.Continues (store (store before [name] stored) [other] (.quantity amount.quantity))
      (store before [name] stored) (withVariable before other amount) := by
  obtain ⟨current, isKnown⟩ := known
  have different : other ≠ name := by
    rintro rfl
    rw [unbound] at isKnown
    cases isKnown
  have unboundAfter := (find?_store_of_ne different before stored).trans unbound
  refine ⟨⟨[.quantity amount.quantity], rfl⟩, ?_, ?_⟩
  · intro target bound found
    have isOther : target ≠ other := by
      rintro rfl
      rw [unboundAfter] at found
      cases found
    exact (find?_store_of_ne isOther _ _).trans found
  · intro target bound missing found
    by_cases same : target = other
    · subst same
      rw [withVariable, Bindings.find?_bind_self] at found
      rw [find?_store_self, ← found]
    · rw [withVariable, Bindings.find?_bind_of_ne _ _ _ _ same] at found
      have isName : target ≠ name := by
        rintro rfl
        rw [find?_store_self] at missing
        cases missing
      rw [find?_store_of_ne isName, found] at missing
      cases missing

/-- The expression of a line that assigns to a known variable, and after it a further variable. -/
theorem assigns_store {unit : Option DisplayUnit} (reachable : Reachable before) (files : Files)
    (line name other : String) (amount total : Amount)
    (known : ((before.bindings.find? name).bind Expression.value?).isSome = true)
    (isExpression : IsExpression line.toList)
    (written : Line.read before (String.ofList (Text.trim line.toList)) =
      .ok { targets := [name], expression, displayUnit := unit })
    (succeeds : (enter files before line).failure.isNone = true)
    (unbound : (before.bindings.find? other).isNone = true)
    (evaluated : Evaluation.settledAmount? (expression.evaluate (withVariable before other amount)) = some total) :
    Assigns before (withVariable before other amount)
      (store (enter files before line).workspace [other] (.quantity amount.quantity)) files line name expression
      total.quantity := by
  have regular := (Reachable.enter reachable files line).stores regular_kept
  have final := store_stores regular [other] (.quantity amount.quantity trivial)
  have noFailure := Option.isNone_iff_eq_none.mp succeeds
  have unknown := Option.isNone_iff_eq_none.mp unbound
  obtain ⟨current, isKnown⟩ : ∃ current, before.bindings.find? name = some (.quantity current) := by
    obtain ⟨current, isValue⟩ := Option.isSome_iff_exists.mp known
    obtain ⟨bound, found, isQuantity⟩ := Option.bind_eq_some_iff.mp isValue
    exact ⟨current, found.trans (congrArg some (Expression.value?_eq_some.mp isQuantity))⟩
  obtain ⟨stored, _, isAfter⟩ := Session.exists_stored isExpression written noFailure
  refine ⟨⟨current, isKnown⟩, isExpression, ⟨unit, written⟩, noFailure, Workspace.completes_bind unknown amount,
    Evaluation.settledAmount?_eq_some.mp evaluated, final.wellFormed, ?_⟩
  rw [isAfter]
  exact continues_store before stored amount ⟨_, isKnown⟩ unknown

def startWith (written : String) : Workspace :=
  (enter noFiles (start .standard) ("x := " ++ written)).workspace

private theorem startWith_reachable (written : String) : Reachable (startWith written) :=
  .enter (.start _) noFiles _

def greatestPower : Amount :=
  { number := 1, dimension := { Dimension.one with length := 2147483647 } }

def overflows : Except EvaluationError Expression → Bool
  | .error .overflow => true
  | _ => false

private theorem eq_overflow_of_overflows {outcome : Except EvaluationError Expression}
    (isOverflow : overflows outcome = true) :
    outcome = .error .overflow := by
  unfold overflows at isOverflow
  split at isOverflow
  · rfl
  · cases isOverflow

/-- The power `x ^ y` is stored as it was written, and `x` is not looked up in it again.  And in `y / y * x` the
value of `x` comes first once it is stored, so that a dimension leaves its range that stayed in it before. -/
theorem assigned_loses_value :
    (∃ full final value, Reachable (startWith "5") ∧
        Assigns (startWith "5") full final noFiles "x := x ^ y" "x" (.tower [.var "x", .var "y"]) value ∧
        StaysExact full [] (.tower [.var "x", .var "y"]) ∧
        (Expression.var "x").evaluate final = .ok (.tower [.var "x", .var "y"])) ∧
      ∃ full final value, Reachable (startWith "1 m") ∧
        Assigns (startWith "1 m") full final noFiles "x := y / y * x" "x"
          (.chain .product [.var "y", .var "y", .var "x"] [.divide, .multiply]) value ∧
        StaysExact full [] (.chain .product [.var "y", .var "y", .var "x"] [.divide, .multiply]) ∧
        (Expression.var "x").evaluate final = .error .overflow := by
  constructor
  · have assigns := assigns_store (startWith_reachable "5") noFiles "x := x ^ y" "x" "y" ⟨2, Dimension.one⟩
      ⟨25, Dimension.one⟩ (by decide +kernel) ⟨'x', _, rfl, by decide, by decide⟩ (by rfl) (by decide +kernel)
      (by decide +kernel) (by decide +kernel)
    exact ⟨_, _, _, startWith_reachable "5", assigns, Evaluation.staysExact_of_inside (by decide +kernel),
      by with_unfolding_all rfl⟩
  · have assigns := assigns_store (startWith_reachable "1 m") noFiles "x := y / y * x" "x" "y" greatestPower
      ⟨1, .ofBase .length⟩ (by decide +kernel) ⟨'x', _, rfl, by decide, by decide⟩ (by rfl) (by decide +kernel)
      (by decide +kernel) (by decide +kernel)
    exact ⟨_, _, _, startWith_reachable "1 m", assigns, Evaluation.staysExact_of_inside (by decide +kernel),
      eq_overflow_of_overflows (by decide +kernel)⟩

/-- In a product the value takes the place of the variable. -/
theorem evaluate_assigned_iff_product :
    ∃ final stored, (enter noFiles (enter noFiles (startWith "5") "x := x * y").workspace "y := 2").workspace =
        final ∧
      (enter noFiles (startWith "5") "x := x * y").workspace.bindings.find? "x" = some stored ∧
      ¬Expression.Exposes (.var "x") stored ∧ ¬Meets final ["x"] stored (.var "x") ∧
      ∃ value, (Expression.var "x").evaluate final = .ok (.quantity value) := by
  have assigns := assigns_store (startWith_reachable "5") noFiles "x := x * y" "x" "y" ⟨2, Dimension.one⟩
    ⟨10, Dimension.one⟩ (by decide +kernel) ⟨'x', _, rfl, by decide, by decide⟩ (by rfl) (by decide +kernel)
    (by decide +kernel) (by decide +kernel)
  have exact : StaysExact (withVariable (startWith "5") "y" ⟨2, Dimension.one⟩) []
      (.chain .product [.var "x", .var "y"] [.multiply]) := Evaluation.staysExact_of_inside (by decide +kernel)
  have stays : (((enter noFiles (startWith "5") "x := x * y").workspace.bindings.find? "x").all fun stored =>
      !overflows (stored.evaluate (withVariable (startWith "5") "y" ⟨2, Dimension.one⟩))) = true := by
    decide +kernel
  obtain ⟨stored, found, noExposed, _, valued⟩ := evaluate_assigned_iff (startWith_reachable "5") assigns
  have inRange : stored.evaluate (withVariable (startWith "5") "y" ⟨2, Dimension.one⟩) ≠ .error .overflow := by
    intro isOverflow
    rw [found, Option.all_some, isOverflow] at stays
    cases stays
  have evaluated := Evaluation.settledAmount?_eq_some.mp
    (show Evaluation.settledAmount? ((Expression.var "x").evaluate
        (store (enter noFiles (startWith "5") "x := x * y").workspace ["y"]
          (.quantity (Amount.quantity ⟨2, Dimension.one⟩)))) = some ⟨10, Dimension.one⟩ by decide +kernel)
  exact ⟨_, stored, by with_unfolding_all rfl, found, noExposed, (valued exact inRange).mp evaluated, _, evaluated⟩

end Session

end QuantityCalculator
