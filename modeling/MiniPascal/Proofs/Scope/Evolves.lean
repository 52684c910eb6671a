import Mathlib.Data.List.Forall2
import MiniPascal.Proofs.Scope.Linked

namespace MiniPascal

/-- How a variable may change once it is declared: what it holds is replaced by a value of its type,
and never taken away. -/
structure Binding.Evolves (before after : Binding) : Prop where
  name : after.name = before.name
  type : after.type = before.type
  value : after.value = before.value ∨
    ∃ value, after.value = some value ∧ value.kind = before.type.kind

theorem Binding.Evolves.refl (binding : Binding) : binding.Evolves binding := ⟨rfl, rfl, .inl rfl⟩

theorem Binding.Evolves.trans {before middle after : Binding} (first : before.Evolves middle)
    (second : middle.Evolves after) : before.Evolves after := by
  refine ⟨second.name.trans first.name, second.type.trans first.type, ?_⟩
  rcases second.value with kept | ⟨value, stored, fits⟩
  · rw [kept]
    exact first.value
  · exact .inr ⟨value, stored, fits.trans (congrArg _ first.type)⟩

/-- How a scope may change while code runs: only the values of its variables do. -/
structure Scope.Evolves (before after : Scope) : Prop where
  name : after.name = before.name
  routines : after.routines = before.routines
  enclosing : after.enclosing = before.enclosing
  bindings : List.Forall₂ Binding.Evolves before.bindings after.bindings

theorem Scope.Evolves.refl (scope : Scope) : scope.Evolves scope :=
  ⟨rfl, rfl, rfl, List.forall₂_same.mpr fun binding _ => .refl binding⟩

theorem bindings_evolve_trans {before middle after : List Binding}
    (first : List.Forall₂ Binding.Evolves before middle)
    (second : List.Forall₂ Binding.Evolves middle after) :
    List.Forall₂ Binding.Evolves before after := by
  induction first generalizing after with
  | nil => exact second
  | cons head tail ih =>
    cases second with
    | cons head' tail' => exact .cons (head.trans head') (ih tail')

theorem Scope.Evolves.trans {before middle after : Scope} (first : before.Evolves middle)
    (second : middle.Evolves after) : before.Evolves after :=
  ⟨second.name.trans first.name, second.routines.trans first.routines,
    second.enclosing.trans first.enclosing, bindings_evolve_trans first.bindings second.bindings⟩

/-- The names and types of variables, in the order of their declaration. -/
def Scope.signature (scope : Scope) : List (String × VarType) :=
  scope.bindings.map fun binding => (binding.name, binding.type)

theorem Scope.map_fst_signature (scope : Scope) :
    scope.signature.map Prod.fst = scope.bindings.map Binding.name := by
  simp [Scope.signature, Function.comp_def]

theorem Scope.Evolves.signature {before after : Scope} (evolves : before.Evolves after) :
    after.signature = before.signature := by
  have maps {old new : List Binding} (bindings : List.Forall₂ Binding.Evolves old new) :
      new.map (fun binding => (binding.name, binding.type)) =
        old.map fun binding => (binding.name, binding.type) := by
    induction bindings with
    | nil => rfl
    | cons head tail ih => rw [List.map_cons, List.map_cons, ih, head.name, head.type]
  exact maps evolves.bindings

theorem Scope.Evolves.orderly {before after : Scope} (evolves : before.Evolves after)
    (orderly : before.Orderly) : after.Orderly := by
  constructor
  · rw [← Scope.map_fst_signature, evolves.signature, Scope.map_fst_signature]
    exact orderly.distinct
  · intro binding member value held
    obtain ⟨index, bound, rfl⟩ := List.mem_iff_getElem.mp member
    have same := evolves.bindings.length_eq
    have step : before.bindings[index].Evolves after.bindings[index] :=
      evolves.bindings.get (by omega) bound
    rw [step.type]
    rcases step.value with kept | ⟨stored, holds, fits⟩
    · exact orderly.typed _ (List.getElem_mem _) value (kept.symm.trans held)
    · rw [holds] at held
      obtain rfl := Option.some.inj held
      exact fits

theorem Scope.Evolves.sound {before after : Scope} {id : ScopeId} (evolves : before.Evolves after)
    (sound : before.Sound id) : after.Sound id := by
  refine (evolves.orderly sound.orderly).sound ?_
  rw [evolves.routines]
  exact sound.owned

/-- How the scopes of a store may change while code runs that may write only to some of them: there
are as many as before, all of them evolve, and the others stay as they are. -/
structure Store.Evolves (writable : List ScopeId) (before after : Store) : Prop where
  size : after.size = before.size
  scope : ∀ id scope, before.scope? id = some scope →
    ∃ later, after.scope? id = some later ∧ scope.Evolves later ∧ (id ∉ writable → later = scope)

namespace Store.Evolves

variable {writable : List ScopeId} {before middle after : Store} {id : ScopeId}

theorem refl (writable : List ScopeId) (store : Store) : store.Evolves writable store :=
  ⟨rfl, fun _ scope found => ⟨scope, found, .refl scope, fun _ => rfl⟩⟩

theorem trans (first : before.Evolves writable middle) (second : middle.Evolves writable after) :
    before.Evolves writable after := by
  refine ⟨second.size.trans first.size, ?_⟩
  intro id scope found
  obtain ⟨later, atLater, evolves, kept⟩ := first.scope id scope found
  obtain ⟨last, atLast, evolves', kept'⟩ := second.scope id later atLater
  exact ⟨last, atLast, evolves.trans evolves', fun locked => (kept' locked).trans (kept locked)⟩

theorem mono {wider : List ScopeId} (evolves : before.Evolves writable after)
    (included : writable ⊆ wider) : before.Evolves wider after := by
  refine ⟨evolves.size, ?_⟩
  intro id scope found
  obtain ⟨later, atLater, step, kept⟩ := evolves.scope id scope found
  exact ⟨later, atLater, step, fun locked => kept fun member => locked (included member)⟩

theorem scope?_none (evolves : before.Evolves writable after) (missing : before.scope? id = none) :
    after.scope? id = none := by
  have outside : before.size ≤ id := Array.getElem?_eq_none_iff.mp missing
  exact Array.getElem?_eq_none_iff.mpr (Nat.le_trans (Nat.le_of_eq evolves.size) outside)

theorem chain_eq (evolves : before.Evolves writable after) (id : ScopeId) :
    after.chain id = before.chain id := by
  cases found : before.scope? id with
  | none => rw [Store.chain, Store.chain, found, evolves.scope?_none found]
  | some scope =>
    obtain ⟨later, atLater, step, -⟩ := evolves.scope id scope found
    rw [Store.chain_of_some found, Store.chain_of_some atLater, step.enclosing]

theorem linked {chain : List ScopeId} (evolves : before.Evolves writable after)
    (linked : before.Linked chain) : after.Linked chain := by
  induction linked with
  | nil => exact .nil
  | cons found sound around ih =>
    obtain ⟨later, atLater, step, -⟩ := evolves.scope _ _ found
    rw [← step.enclosing] at ih ⊢
    exact .cons atLater (step.sound sound) ih

/-- When a scope goes, what happened to the others stands. -/
theorem pop {frame : Scope} (evolves : (before.push frame).Evolves (before.size :: writable) after) :
    before.Evolves writable after.pop := by
  have size : after.size = before.size + 1 := evolves.size.trans Store.size_push
  refine ⟨by rw [Store.size_pop, size, Nat.add_sub_cancel], ?_⟩
  intro id scope found
  have below := Store.lt_size found
  obtain ⟨later, atLater, step, kept⟩ := evolves.scope id scope (Store.scope?_push_of_some found)
  refine ⟨later, ?_, step, ?_⟩
  · rw [Store.scope?_pop_of_lt (by rw [size, Nat.add_sub_cancel]; exact below), atLater]
  · intro locked
    apply kept
    rw [List.mem_cons]
    rintro (latest | member)
    · exact Nat.ne_of_lt below latest
    · exact locked member

end Store.Evolves

end MiniPascal
