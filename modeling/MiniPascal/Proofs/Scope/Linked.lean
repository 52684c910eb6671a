import MiniPascal.Scope.Store

namespace MiniPascal

variable {store : Store} {scope added : Scope} {id owner : ScopeId} {chain : List ScopeId}

@[simp] theorem Store.size_push : (store.push scope).size = store.size + 1 := by
  simp [Store.push, Store.size]

@[simp] theorem Store.size_pop : store.pop.size = store.size - 1 := by
  simp [Store.pop, Store.size]

theorem Store.lt_size (found : store.scope? id = some scope) : id < store.size := by
  obtain ⟨bound, -⟩ := Array.getElem?_eq_some_iff.mp found
  exact bound

@[simp] theorem Store.scope?_push_size : (store.push added).scope? store.size = some added := by
  simp [Store.push, Store.scope?, Store.size]

theorem Store.scope?_push_of_lt (below : id < store.size) :
    (store.push added).scope? id = store.scope? id := by
  have other : id ≠ store.scopes.size := Nat.ne_of_lt below
  simp [Store.push, Store.scope?, Array.getElem?_push, other]

theorem Store.scope?_push_of_some (found : store.scope? id = some scope) :
    (store.push added).scope? id = some scope := by
  rw [Store.scope?_push_of_lt (Store.lt_size found), found]

theorem Store.scope?_pop_of_lt (below : id < store.size - 1) :
    store.pop.scope? id = store.scope? id := by
  have inside : id < store.scopes.size - 1 := below
  simp [Store.pop, Store.scope?, inside]

@[simp] theorem Store.pop_push : (store.push added).pop = store := by
  simp [Store.push, Store.pop]

theorem Store.chain_of_some (found : store.scope? id = some scope) :
    store.chain id = id :: scope.enclosing := by
  rw [Store.chain, found]

/-- Only the latest scope is replaced, so the ones below are those of the store before the push. -/
theorem Store.set_push : (store.push scope).set store.size added = store.push added := by
  have same : (store.scopes.push scope).setIfInBounds store.scopes.size added =
      store.scopes.push added := by
    apply Array.ext_getElem?
    intro index
    rw [Array.getElem?_setIfInBounds, Array.getElem?_push, Array.getElem?_push]
    by_cases latest : index = store.scopes.size
    · simp [latest]
    · simp [latest, Ne.symm latest]
  simp only [Store.set, Store.push, Store.size, same]

/-- What every scope of a run satisfies: it owns its routines, no two of its variables share a name,
and what a variable holds is of its type. -/
structure Scope.Sound (id : ScopeId) (scope : Scope) : Prop where
  owned : ∀ closure ∈ scope.routines, closure.home = id
  distinct : (scope.bindings.map Binding.name).Nodup
  typed : ∀ binding ∈ scope.bindings, ∀ value, binding.value = some value →
    value.kind = binding.type.kind

/-- A variable holds nothing, or a value of exactly its type. -/
def Binding.Typed (binding : Binding) : Prop :=
  ∀ value, binding.value = some value → value.kind = binding.type.kind

/-- What a scope satisfies even if its routines belong to other scopes. -/
structure Scope.Orderly (scope : Scope) : Prop where
  distinct : (scope.bindings.map Binding.name).Nodup
  typed : ∀ binding ∈ scope.bindings, binding.Typed

theorem Scope.Sound.orderly (sound : scope.Sound id) : scope.Orderly :=
  ⟨sound.distinct, sound.typed⟩

theorem Scope.Orderly.sound (orderly : scope.Orderly)
    (owned : ∀ closure ∈ scope.routines, closure.home = id) : scope.Sound id :=
  ⟨owned, orderly.distinct, orderly.typed⟩

/-- A chain of scopes, each directly inside the next. -/
inductive Store.Linked (store : Store) : List ScopeId → Prop where
  | nil : Linked store []
  | cons {id : ScopeId} {scope : Scope} (found : store.scope? id = some scope)
    (sound : scope.Sound id) (around : Linked store scope.enclosing) :
    Linked store (id :: scope.enclosing)

namespace Store.Linked

theorem scope_of_mem (linked : store.Linked chain) (member : id ∈ chain) :
    ∃ scope, store.scope? id = some scope ∧ scope.Sound id := by
  induction linked with
  | nil => cases member
  | cons found sound around ih =>
    rcases List.mem_cons.mp member with rfl | outer
    · exact ⟨_, found, sound⟩
    · exact ih outer

theorem orderly (linked : store.Linked chain) (member : id ∈ chain)
    (found : store.scope? id = some scope) : scope.Orderly := by
  obtain ⟨same, atSame, sound⟩ := linked.scope_of_mem member
  obtain rfl : scope = same := Option.some.inj (found.symm.trans atSame)
  exact sound.orderly

/-- A scope of a chain is searched along the rest of that chain. -/
theorem chain_suffix (linked : store.Linked chain) (member : id ∈ chain) :
    store.chain id <:+ chain ∧ store.Linked (store.chain id) := by
  induction linked with
  | nil => cases member
  | cons found sound around ih =>
    rcases List.mem_cons.mp member with rfl | outer
    · rw [Store.chain_of_some found]
      exact ⟨List.suffix_refl _, .cons found sound around⟩
    · obtain ⟨suffix, tail⟩ := ih outer
      exact ⟨suffix.trans (List.suffix_cons _ _), tail⟩

theorem chain_eq_drop {out : Nat} (linked : store.Linked chain) (found : chain[out]? = some id) :
    store.chain id = chain.drop out := by
  induction linked generalizing out with
  | nil => cases found
  | cons atScope sound around ih =>
    cases out with
    | zero =>
      cases found
      exact Store.chain_of_some atScope
    | succ out => exact ih found

/-- What a routine's name finds is owned by a scope of the chain. -/
theorem home_mem {closure : Closure} {name : String} (linked : store.Linked (store.chain id))
    (visible : store.routine? id name = some closure) : closure.home ∈ store.chain id := by
  obtain ⟨owner, member, found⟩ := List.exists_of_findSome?_eq_some visible
  obtain ⟨scope, atOwner, listed⟩ := Option.bind_eq_some_iff.mp found
  obtain ⟨scope', atOwner', sound⟩ := linked.scope_of_mem member
  have same : scope = scope' := Option.some.inj (atOwner.symm.trans atOwner')
  subst same
  rw [sound.owned closure (List.mem_of_find?_eq_some listed)]
  exact member

theorem push (linked : store.Linked chain) : (store.push added).Linked chain := by
  induction linked with
  | nil => exact .nil
  | cons found sound around ih =>
    exact .cons (Store.scope?_push_of_some found) sound ih

end Store.Linked

end MiniPascal
