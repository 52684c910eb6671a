import MiniPascal.Proofs.Scope.Declared
import MiniPascal.Scope.Graph

namespace MiniPascal

/-- Every variable of every scope holds nothing, or a value of exactly its type. -/
def Store.Typed (store : Store) : Prop :=
  ∀ id scope, store.scope? id = some scope → ∀ binding ∈ scope.bindings, binding.Typed

def Store.Orderly (store : Store) : Prop :=
  ∀ id scope, store.scope? id = some scope → scope.Orderly

section

variable {store after : Store} {scope changed : Scope} {id : ScopeId} {name : String}

theorem Store.Orderly.typed (orderly : store.Orderly) : store.Typed :=
  fun id scope found => (orderly id scope found).typed

theorem Store.orderly_empty : Store.Orderly ⟨#[]⟩ := by
  intro id scope found
  simp [Store.scope?] at found

theorem Store.Orderly.push (orderly : store.Orderly) (added : scope.Orderly) :
    (store.push scope).Orderly := by
  intro id other found
  by_cases below : id < store.size
  · rw [Store.scope?_push_of_lt below] at found
    exact orderly id other found
  · have latest : id = store.size := by
      have bound := Store.lt_size found
      rw [Store.size_push] at bound
      exact Nat.le_antisymm (Nat.le_of_lt_succ bound) (Nat.not_lt.mp below)
    rw [latest, Store.scope?_push_size] at found
    cases found
    exact added

theorem Store.Orderly.set (orderly : store.Orderly) (id : ScopeId) (replaced : scope.Orderly) :
    (store.set id scope).Orderly := by
  intro other old found
  rw [Store.set, Store.scope?, Array.getElem?_setIfInBounds] at found
  split at found
  · split at found
    · cases found
      exact replaced
    · cases found
  · exact orderly other old found

theorem Store.Orderly.evolve {writable : List ScopeId} (orderly : store.Orderly)
    (evolves : store.Evolves writable after) : after.Orderly := by
  intro id later atLater
  cases found : store.scope? id with
  | none =>
    rw [evolves.scope?_none found] at atLater
    cases atLater
  | some scope =>
    obtain ⟨other, atOther, step, -⟩ := evolves.scope id scope found
    obtain rfl : later = other := Option.some.inj (atLater.symm.trans atOther)
    exact step.orderly (orderly id scope found)

theorem Scope.Orderly.declareVar {type : VarType} (orderly : scope.Orderly)
    (taken : scope.declareVar name type = .ok changed) : changed.Orderly := by
  simp only [Scope.declareVar, Scope.declares_iff] at taken
  split at taken
  · cases taken
  · rename_i fresh
    cases taken
    exact orderly.addVar type fun listed => fresh (List.mem_append_left _ listed)

theorem Scope.Orderly.declareRoutine {closure : Closure} (orderly : scope.Orderly)
    (taken : scope.declareRoutine closure = .ok changed) : changed.Orderly := by
  rw [Scope.declareRoutine] at taken
  split at taken
  · cases taken
  · cases taken
    exact ⟨orderly.distinct, orderly.typed⟩

theorem Store.Orderly.update {change : Scope → Except Fault Scope} (orderly : store.Orderly)
    (keeps : ∀ {scope changed}, Scope.Orderly scope → change scope = .ok changed → changed.Orderly)
    (taken : store.update id change = .ok after) : after.Orderly := by
  rw [Store.update] at taken
  split at taken
  · cases taken
    exact orderly
  · rename_i scope found
    obtain ⟨changed, made, taken⟩ := except_bind_ok.mp taken
    cases taken
    exact orderly.set id (keeps (orderly id scope found) made)

theorem Store.Orderly.assign {value : Value} (orderly : store.Orderly)
    (taken : store.assign id name value = .ok after) : after.Orderly :=
  orderly.evolve (Store.assign_evolves (fun owner _ => orderly owner) taken)

end

/-- The graphs that operations lead to, one after another. -/
inductive ScopeGraph.Reachable : ScopeGraph → Prop where
  | initial : Reachable .initial
  | step {graph next : ScopeGraph} {id : ScopeId} {op : ScopeOp} {answer : ScopeAnswer}
    (reachable : Reachable graph) (stepped : graph.step id op = .ok (next, answer)) :
    Reachable next

section

variable {graph next : ScopeGraph} {id : ScopeId} {op : ScopeOp} {answer : ScopeAnswer}
  {scope : Scope}

theorem ScopeGraph.step_ok (stepped : graph.step id op = .ok (next, answer)) :
    graph.held id = true ∧
      ∃ scope, graph.store.scope? id = some scope ∧ graph.apply id scope op = .ok (next, answer) := by
  unfold ScopeGraph.step at stepped
  extract_lets ownerHeld at stepped
  split at stepped
  · rename_i scope found
    split at stepped
    · rename_i usable
      cases applied : graph.apply id scope op with
      | error cause =>
        rw [applied] at stepped
        cases stepped
      | ok result =>
        rw [applied] at stepped
        cases stepped
        exact ⟨(Bool.and_eq_true_iff.mp usable).1, scope, found, applied⟩
    · cases stepped
  · cases stepped

theorem ScopeGraph.apply_orderly (orderly : graph.store.Orderly)
    (applied : graph.apply id scope op = .ok (next, answer)) : next.store.Orderly := by
  cases op with
  | child name =>
    cases applied
    exact orderly.push ⟨.nil, by simp [Store.inner]⟩
  | drop | localValue name | resolve name | name | bindings =>
    cases applied
    exact orderly
  | declareVar name type =>
    obtain ⟨store, taken, applied⟩ := except_bind_ok.mp applied
    cases applied
    exact orderly.update Scope.Orderly.declareVar taken
  | declareRoutine name owner =>
    obtain ⟨store, taken, applied⟩ := except_bind_ok.mp applied
    cases applied
    exact orderly.update Scope.Orderly.declareRoutine taken
  | assign name value =>
    obtain ⟨store, taken, applied⟩ := except_bind_ok.mp applied
    cases applied
    exact orderly.assign taken
  | get name =>
    obtain ⟨value, -, applied⟩ := except_bind_ok.mp applied
    cases applied
    exact orderly

theorem ScopeGraph.Reachable.orderly (reachable : graph.Reachable) : graph.store.Orderly := by
  induction reachable with
  | initial => exact Store.orderly_empty.push ⟨.nil, by simp [Scope.global]⟩
  | step reachable stepped ih =>
    obtain ⟨-, scope, -, applied⟩ := ScopeGraph.step_ok stepped
    exact ScopeGraph.apply_orderly ih applied

end

end MiniPascal
