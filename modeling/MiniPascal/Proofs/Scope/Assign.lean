import Mathlib.Data.List.Nodup
import MiniPascal.Proofs.Scope.Evolves

namespace MiniPascal

variable {store after : Store} {scope : Scope} {binding : Binding} {id owner : ScopeId}
  {name : String} {value stored : Value} {type : VarType}

theorem Value.kind_of_coerce? (taken : value.coerce? type = some stored) :
    stored.kind = type.kind := by
  revert taken
  fun_cases Value.coerce? type value <;> rintro ⟨⟩ <;> rfl

theorem Binding.kind_of_accept (taken : binding.accept value = .ok stored) :
    stored.kind = binding.type.kind := by
  rw [Binding.accept] at taken
  split at taken
  · rename_i coerced
    cases taken
    exact Value.kind_of_coerce? coerced
  · cases taken

theorem Scope.mem_of_binding? (found : scope.binding? name = some binding) :
    binding ∈ scope.bindings ∧ binding.name = name := by
  have named := List.find?_some found
  exact ⟨List.mem_of_find?_eq_some found, by simpa using named⟩

/-- In an orderly scope only one variable has the name, so only that one takes the value. -/
theorem Scope.setValue_evolves (orderly : scope.Orderly) (found : scope.binding? name = some binding)
    (fits : value.kind = binding.type.kind) : scope.Evolves (scope.setValue name value) := by
  obtain ⟨member, rfl⟩ := Scope.mem_of_binding? found
  refine ⟨rfl, rfl, rfl, ?_⟩
  simp only [Scope.setValue, List.forall₂_map_right_iff]
  refine List.forall₂_same.mpr fun other listed => ?_
  by_cases named : other.name = binding.name
  · obtain rfl : other = binding := List.inj_on_of_nodup_map orderly.distinct listed member named
    rw [if_pos rfl]
    exact ⟨rfl, rfl, .inr ⟨value, rfl, fits⟩⟩
  · rw [if_neg named]
    exact .refl other

theorem Store.binding?_some (found : store.binding? id name = some (owner, binding)) :
    owner ∈ store.chain id ∧
      ∃ scope, store.scope? owner = some scope ∧ scope.binding? name = some binding := by
  obtain ⟨holder, member, held⟩ := List.exists_of_findSome?_eq_some found
  obtain ⟨own, atHolder, same⟩ := Option.map_eq_some_iff.mp held
  obtain ⟨scope, atScope, listed⟩ := Option.bind_eq_some_iff.mp atHolder
  cases same
  exact ⟨member, scope, atScope, listed⟩

/-- An assignment that succeeds replaces the value of the variable that its name means. -/
theorem Store.assign_ok (taken : store.assign id name value = .ok after) :
    ∃ owner binding stored, store.binding? id name = some (owner, binding) ∧
      binding.accept value = .ok stored ∧
      after = ⟨store.scopes.modify owner (·.setValue name stored)⟩ := by
  rw [Store.assign] at taken
  split at taken
  · cases taken
  · rename_i owner binding found
    cases accepted : binding.accept value with
    | error cause =>
      rw [accepted] at taken
      cases taken
    | ok stored =>
      rw [accepted] at taken
      cases taken
      exact ⟨owner, binding, stored, found, accepted, rfl⟩

/-- An assignment writes to no scope outside the chain in which it looks for its target. -/
theorem Store.assign_evolves
    (orderly : ∀ owner ∈ store.chain id, ∀ scope, store.scope? owner = some scope → scope.Orderly)
    (taken : store.assign id name value = .ok after) : store.Evolves (store.chain id) after := by
  obtain ⟨owner, binding, stored, found, accepted, rfl⟩ := Store.assign_ok taken
  obtain ⟨member, scope, atOwner, listed⟩ := Store.binding?_some found
  have evolves := Scope.setValue_evolves (orderly owner member scope atOwner) listed
    (Binding.kind_of_accept accepted)
  refine ⟨by simp [Store.size], ?_⟩
  intro other old atOther
  by_cases written : owner = other
  · subst written
    obtain rfl : scope = old := Option.some.inj (atOwner.symm.trans atOther)
    refine ⟨scope.setValue name stored, ?_, evolves, fun locked => absurd member locked⟩
    rw [Store.scope?, Array.getElem?_modify, if_pos rfl]
    exact congrArg (Option.map _) atOwner
  · refine ⟨old, ?_, .refl old, fun _ => rfl⟩
    rw [Store.scope?, Array.getElem?_modify, if_neg written]
    exact atOther

end MiniPascal
