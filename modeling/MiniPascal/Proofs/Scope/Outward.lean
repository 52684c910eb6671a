import MiniPascal.Proofs.Scope.Index

namespace MiniPascal

/-- The scope directly around another. -/
def Store.parent? (store : Store) (id : ScopeId) : Option ScopeId :=
  (store.scope? id).bind (·.enclosing.head?)

/-- The way from a scope to the global one, link by link. -/
inductive Store.LeadsOut (store : Store) : ScopeId → List ScopeId → Prop where
  | global {scope : Scope} (found : store.scope? 0 = some scope) (last : store.parent? 0 = none) :
    LeadsOut store 0 [0]
  | inner {id parent : ScopeId} {scope : Scope} {path : List ScopeId}
    (found : store.scope? id = some scope) (link : store.parent? id = some parent)
    (outer : LeadsOut store parent path) : LeadsOut store id (id :: path)

/-- A search from scope to scope along the links, to the first that knows an answer or past the last
one. It has only finitely many steps to make, or it would have no result. -/
inductive Store.Climbs {α : Type} (store : Store) (known : ScopeId → Scope → Option α) :
    ScopeId → Option α → Prop where
  | here {id : ScopeId} {scope : Scope} {answer : α} (found : store.scope? id = some scope)
    (knows : known id scope = some answer) : Climbs store known id (some answer)
  | outer {id parent : ScopeId} {scope : Scope} {answer : Option α}
    (found : store.scope? id = some scope) (unknown : known id scope = none)
    (link : store.parent? id = some parent) (climbs : Climbs store known parent answer) :
    Climbs store known id answer
  | nowhere {id : ScopeId} {scope : Scope} (found : store.scope? id = some scope)
    (unknown : known id scope = none) (last : store.parent? id = none) :
    Climbs store known id none

/-- A scope to be put on a store: it is the first, or directly inside one that is there. -/
def Scope.Inside (scope : Scope) (store : Store) : Prop :=
  store.size = 0 ∧ scope.enclosing = [] ∨ ∃ parent < store.size, scope.enclosing = store.chain parent

/-- Every scope but the global one is directly inside one that was there before it. -/
def Store.Nested (store : Store) : Prop :=
  ∀ id scope, store.scope? id = some scope →
    (id = 0 ∧ scope.enclosing = []) ∨ ∃ parent < id, scope.enclosing = store.chain parent

section

variable {store after : Store} {scope : Scope} {id parent : ScopeId} {path : List ScopeId}

theorem Store.scope?_of_lt (bound : id < store.size) : ∃ scope, store.scope? id = some scope :=
  ⟨_, Array.getElem?_eq_getElem bound⟩

/-- A scope of a larger store was there before, or it is the one that was put on. -/
theorem Store.scope?_push_cases {added : Scope}
    (found : (store.push added).scope? id = some scope) :
    id < store.size ∧ store.scope? id = some scope ∨ id = store.size ∧ scope = added := by
  have within : id < store.size + 1 := Store.size_push ▸ Store.lt_size found
  by_cases below : id < store.size
  · rw [Store.scope?_push_of_lt below] at found
    exact .inl ⟨below, found⟩
  · have latest : id = store.size :=
      Nat.le_antisymm (Nat.le_of_lt_succ within) (Nat.not_lt.mp below)
    rw [latest, Store.scope?_push_size] at found
    exact .inr ⟨latest, (Option.some.inj found).symm⟩

/-- The links alone decide whether a store is nested. -/
theorem Store.Nested.of_links (nested : store.Nested)
    (same : ∀ id, (after.scope? id).map Scope.enclosing = (store.scope? id).map Scope.enclosing) :
    after.Nested := by
  have chains (id : ScopeId) : after.chain id = store.chain id := by
    have links := same id
    rw [Store.chain, Store.chain]
    cases before : store.scope? id <;> cases later : after.scope? id <;> simp_all
  intro id later atLater
  have links := same id
  rw [atLater, Option.map_some] at links
  obtain ⟨scope, found, kept⟩ := Option.map_eq_some_iff.mp links.symm
  have place := nested id scope found
  simp only [chains, ← kept]
  exact place

theorem Store.nested_empty : Store.Nested ⟨#[]⟩ := by
  intro id scope found
  simp [Store.scope?] at found

theorem Store.Nested.push (nested : store.Nested) (inside : scope.Inside store) :
    (store.push scope).Nested := by
  have chains (parent : ScopeId) (bound : parent < store.size) :
      (store.push scope).chain parent = store.chain parent := by
    rw [Store.chain, Store.scope?_push_of_lt bound, Store.chain]
  intro id other found
  rcases Store.scope?_push_cases found with ⟨below, found⟩ | ⟨latest, rfl⟩
  · rcases nested id other found with first | ⟨parent, earlier, around⟩
    · exact .inl first
    · exact .inr ⟨parent, earlier, by rw [chains parent (Nat.lt_trans earlier below), around]⟩
  · rcases inside with ⟨empty, outermost⟩ | ⟨parent, bound, around⟩
    · exact .inl ⟨latest.trans empty, outermost⟩
    · exact .inr ⟨parent, latest ▸ bound, by rw [chains parent bound, around]⟩

theorem Store.Nested.evolve {writable : List ScopeId} (nested : store.Nested)
    (evolves : store.Evolves writable after) : after.Nested := by
  refine nested.of_links fun id => ?_
  cases found : store.scope? id with
  | none => rw [evolves.scope?_none found]
  | some scope =>
    obtain ⟨later, atLater, step, -⟩ := evolves.scope id scope found
    rw [atLater, Option.map_some, Option.map_some, step.enclosing]

/-- Scopes are numbered from the outside in, so the links of a scope go to ever lower numbers and end
at the global one. -/
theorem Store.Nested.leadsOut (nested : store.Nested) (found : store.scope? id = some scope) :
    store.LeadsOut id (store.chain id) := by
  induction id using Nat.strongRecOn generalizing scope with
  | ind id ih =>
    have chain := Store.chain_of_some found
    rcases nested id scope found with ⟨rfl, outermost⟩ | ⟨parent, earlier, inside⟩
    · rw [chain, outermost]
      exact .global found (by simp [Store.parent?, found, outermost])
    · have bound : parent < store.size := Nat.lt_trans earlier (Store.lt_size found)
      obtain ⟨around, atParent⟩ := Store.scope?_of_lt bound
      have link : store.parent? id = some parent := by
        simp [Store.parent?, found, inside, Store.chain_of_some atParent]
      rw [chain, inside]
      exact .inner found link (ih parent earlier atParent)

theorem Store.LeadsOut.climbs {α : Type} (known : ScopeId → Scope → Option α)
    (leads : store.LeadsOut id path) :
    store.Climbs known id (path.findSome? fun owner => (store.scope? owner).bind (known owner)) := by
  induction leads with
  | global found last =>
    rw [List.findSome?_singleton, found, Option.bind_some]
    cases knows : known 0 _ with
    | none => exact .nowhere found knows last
    | some answer => exact .here found knows
  | @inner id parent scope path found link outer ih =>
    rw [List.findSome?_cons, found, Option.bind_some]
    cases knows : known id scope with
    | none => exact .outer found knows link ih
    | some answer => exact .here found knows

end

end MiniPascal
