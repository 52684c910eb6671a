import MiniPascal.Proofs.Run.Origin
import MiniPascal.Proofs.Run.SafeExecution
import MiniPascal.Proofs.Run.Visited
import MiniPascal.Proofs.Scope.Typed

namespace MiniPascal

open MiniPascal.Action

section

variable {config : Config} {program : Program} {fuel depth : Nat} {sink : Sink}
  {closure : Closure} {args : List Value} {machine after : Machine} {value : Option Value}

theorem Store.Invariant.orderly (config : Config) : Store.Invariant config Store.Orderly where
  empty := Store.orderly_empty
  evolves := fun evolves orderly => orderly.evolve evolves
  push := fun _ sound orderly => orderly.push sound.orderly

/-- The code of an activation leaves its own scope in place, with the result variable that the
heading declares; so what the function gives is of its type, whatever the code stored there. -/
theorem Reached.result_kind
    (reached : Reached config program fuel sink ⟨depth, .enter closure args, machine⟩)
    (run : activate config depth closure args machine = .ok value after) :
    value.map Value.kind = closure.routine.heading.result.map VarType.kind := by
  cases depth with
  | zero => cases run
  | succ depth =>
    obtain ⟨begun, last, begins, body, rfl⟩ := activate_ok run
    obtain ⟨level, around, placed⟩ := reached.placed
    obtain ⟨out, -, atHome, arity⟩ := placed.enters closure args rfl
    have executes := (begins.executes placed.executes atHome arity).2
    exact returned_kind (executes.after_execAll body)

theorem Action.call_builtin {enter : Activate} {builtin : Builtin}
    (run : call enter (.builtin builtin) args machine = .ok value after) : value = none := by
  obtain ⟨_, middle, -, ended⟩ := ok_of_bind run
  cases ended
  rfl

/-- Variables hold values of exactly their declared types. It is so throughout every run of every
program, well-typed or not, also in a new scope that has some of its parameters, and after every
sequence of operations on scopes. A routine that is called in a run and succeeds gives a value of
its result type if it is a function and none if it is a procedure, and a builtin gives none. -/
theorem stored_values_typed (config : Config) (program : Program) (fuel : Nat) (sink : Sink) :
    (∀ machine, Visited config program fuel sink machine → machine.store.Typed) ∧
    (∀ name enclosing params args scope,
      (Scope.mk name [] [] enclosing).bindParams params args = .ok scope →
        ∀ binding ∈ scope.bindings, binding.Typed) ∧
    (∀ graph : ScopeGraph, graph.Reachable → graph.store.Typed) ∧
    (∀ depth closure args machine value after,
      Reached config program fuel sink ⟨depth, .enter closure args, machine⟩ →
        activate config depth closure args machine = .ok value after →
          value.map Value.kind = closure.routine.heading.result.map VarType.kind) ∧
    ∀ enter builtin args machine value after,
      call enter (.builtin builtin) args machine = .ok value after → value = none := by
  refine ⟨?_, ?_, ?_, ?_, ?_⟩
  · intro machine visited
    exact (visited.satisfies (Store.Invariant.orderly config)).typed
  · intro name enclosing params args scope bound
    have empty : (Scope.mk name [] [] enclosing).Sound 0 := Scope.sound_of_empty name enclosing
    exact (Scope.bindParams_binds empty bound).sound.typed
  · intro graph reachable
    exact reachable.orderly.typed
  · intro depth closure args machine value after reached run
    exact reached.result_kind run
  · intro enter builtin args machine value after run
    exact Action.call_builtin run

end

/-- An integer that an inner scope assigns to a real variable around it is stored as a real. -/
theorem stored_values_typed_widened : ∃ graph : ScopeGraph, graph.Reachable ∧ graph.store.Typed ∧
    ((graph.store.scope? 0).bind (·.localValue? "x")).map Value.kind = some .real := by
  have declared := @ScopeGraph.Reachable.step _ _ 0 (.declareVar "x" .real) _ .initial rfl
  have nested := @ScopeGraph.Reachable.step _ _ 0 (.child "inner") _ declared rfl
  have assigned := @ScopeGraph.Reachable.step _ _ 1 (.assign "x" (.integer 3)) _ nested rfl
  obtain ⟨-, -, typed, -⟩ := stored_values_typed .default shadowing 0 (.empty none)
  exact ⟨_, assigned, typed _ assigned, rfl⟩

end MiniPascal
