import QuantityCalculator.Expression.Basic

/-!
What a line is read and evaluated against: stored results, bound variables and settings.
-/

namespace QuantityCalculator

structure Settings where
  /-- Show each expression before it is evaluated. -/
  debug : Bool
  /-- Show exact numbers as ratios. -/
  fractions : Bool
  /-- Let a line start with an operator that applies to the last result. -/
  continuation : Bool
  deriving DecidableEq, Repr

def Settings.standard : Settings :=
  { debug := false, fractions := false, continuation := true }

/-- Variables with their expressions, in the order of their names. -/
abbrev Bindings := List (String × Expression)

namespace Bindings

def find? (bindings : Bindings) (name : String) : Option Expression :=
  List.lookup name bindings

def bind (name : String) (expression : Expression) : Bindings → Bindings
  | [] => [(name, expression)]
  | (other, bound) :: rest =>
    if name = other then (name, expression) :: rest
    else if name < other then (name, expression) :: (other, bound) :: rest
    else (other, bound) :: bind name expression rest

/-- A variable has the expression that it was bound to last. -/
theorem find?_bind_self (name : String) (expression : Expression) (bindings : Bindings) :
    (bind name expression bindings).find? name = some expression := by
  induction bindings with
  | nil => simp [bind, find?]
  | cons binding rest ih =>
      obtain ⟨other, bound⟩ := binding
      unfold bind
      split
      · simp [find?]
      · split
        · simp [find?]
        · rename_i different _
          have differs : (name == other) = false := beq_false_of_ne different
          simpa only [find?, List.lookup_cons, differs] using ih

/-- Binding a variable leaves all others as they are. -/
theorem find?_bind_of_ne (name other : String) (expression : Expression) (bindings : Bindings)
    (different : other ≠ name) :
    (bind name expression bindings).find? other = bindings.find? other := by
  have differs : (other == name) = false := beq_false_of_ne different
  induction bindings with
  | nil => simp [bind, find?, List.lookup_cons, differs]
  | cons binding rest ih =>
      obtain ⟨bound, value⟩ := binding
      unfold bind
      split
      · rename_i same
        subst same
        simp [find?, List.lookup_cons, differs]
      · split
        · simp [find?, List.lookup_cons, differs]
        · unfold find? at ih ⊢
          simp only [List.lookup_cons]
          split
          · rfl
          · exact ih

def bindAll (bindings : Bindings) (definitions : List (String × Expression)) : Bindings :=
  definitions.foldl (fun current definition => bind definition.1 definition.2 current) bindings

end Bindings

structure Workspace where
  /-- The results, the first one first. -/
  outputs : List Expression
  bindings : Bindings
  settings : Settings

namespace Workspace

def empty : Workspace := { outputs := [], bindings := [], settings := Settings.standard }

/-- The result with an index, counted from one. -/
def output? (workspace : Workspace) (index : Nat) : Option Expression :=
  if index = 0 then none else workspace.outputs[index - 1]?

def height (workspace : Workspace) (expression : Expression) : Nat :=
  max expression.height
    (max (Expression.heightOfList workspace.outputs)
      (Expression.heightOfList (workspace.bindings.map Prod.snd)))

end Workspace

end QuantityCalculator
