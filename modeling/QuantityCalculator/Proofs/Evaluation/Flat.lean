import QuantityCalculator.Proofs.Evaluation.Failure
import QuantityCalculator.Proofs.Expression.Flat

/-!
Flat results of evaluations.

Evaluating a flat expression against flat stored expressions gives a flat expression.  A reference stays in the
result outside of its towers only if nothing is stored under it, or if its own expression is being evaluated.
-/

namespace QuantityCalculator

structure Workspace.Stores (holds : Expression → Prop) (workspace : Workspace) : Prop where
  outputs : ∀ stored, stored ∈ workspace.outputs → holds stored
  bindings : ∀ binding, binding ∈ workspace.bindings → holds binding.2

namespace Workspace.Stores

variable {holds : Expression → Prop} {workspace : Workspace}

theorem imp {other : Expression → Prop} (stores : workspace.Stores holds)
    (implies : ∀ expression, holds expression → other expression) : workspace.Stores other :=
  ⟨fun stored member => implies _ (stores.outputs stored member),
    fun binding member => implies _ (stores.bindings binding member)⟩

theorem output (stores : workspace.Stores holds) {index : Nat} {stored : Expression}
    (found : workspace.output? index = some stored) : holds stored :=
  stores.outputs stored (output?_eq_some found).2.2

theorem bound (stores : workspace.Stores holds) {name : String} {bound : Expression}
    (found : workspace.bindings.find? name = some bound) : holds bound :=
  stores.bindings _ (Bindings.mem_of_find? found)

end Workspace.Stores

namespace Evaluation

variable {workspace : Workspace}

theorem within_regular (stores : workspace.Stores Expression.Regular) {depth : Nat} {active : List String}
    {expression result : Expression} (regular : expression.Regular)
    (evaluated : within workspace depth active expression = .ok result) : result.Regular :=
  within_formed (Keeps.all workspace fun _ => trivial) (fun _ _ => stores.bound) (fun _ _ => stores.output)
    (fun _ _ => id) regular evaluated

theorem within_regular_unbroken (stores : workspace.Stores Expression.Regular) (depth : Nat)
    (active : List String) {expression : Expression} (regular : expression.Regular) :
    within workspace depth active expression ≠ .error .brokenChain :=
  within_unbroken (fun _ _ found => (stores.bound found).wellFormed)
    (fun _ _ found => (stores.output found).wellFormed) depth active regular.wellFormed

end Evaluation

end QuantityCalculator
