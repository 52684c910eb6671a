import MiniPascal.Proofs.Run.Equations
import MiniPascal.Proofs.Scope.Typed

namespace MiniPascal

/-- The variable that a name means in a scope: the first of that name on the way out. -/
structure Store.Means (store : Store) (id : ScopeId) (name : String) (owner : ScopeId)
    (binding : Binding) : Prop where
  first : ∃ inner outer, store.chain id = inner ++ owner :: outer ∧ ∀ other ∈ inner, ∀ scope,
    store.scope? other = some scope → name ∉ scope.bindings.map Binding.name
  held : ∃ scope, store.scope? owner = some scope ∧ binding ∈ scope.bindings
  named : binding.name = name

/-- One variable is replaced in its place, and all else is as before. -/
structure Store.Replaces (before : Store) (owner : ScopeId) (old new : Binding) (after : Store) :
    Prop where
  size : after.size = before.size
  others : ∀ other, other ≠ owner → after.scope? other = before.scope? other
  place : ∃ scope front back, before.scope? owner = some scope ∧
    scope.bindings = front ++ old :: back ∧
    after.scope? owner = some { scope with bindings := front ++ new :: back }

section

variable {store after : Store} {scope : Scope} {binding other : Binding} {id owner : ScopeId}
  {name : String} {value stored : Value}

theorem Scope.binding?_eq_none : scope.binding? name = none ↔
    name ∉ scope.bindings.map Binding.name := by
  simp [Scope.binding?, List.find?_eq_none]

theorem Scope.Orderly.eq_of_name (orderly : scope.Orderly) (listed : binding ∈ scope.bindings)
    (member : other ∈ scope.bindings) (same : binding.name = other.name) : binding = other :=
  List.inj_on_of_nodup_map orderly.distinct listed member same

theorem Scope.Orderly.binding?_iff (orderly : scope.Orderly) :
    scope.binding? name = some binding ↔ binding ∈ scope.bindings ∧ binding.name = name := by
  constructor
  · exact Scope.mem_of_binding?
  · rintro ⟨listed, rfl⟩
    cases found : scope.binding? binding.name with
    | none => exact absurd (List.mem_map_of_mem listed) (Scope.binding?_eq_none.mp found)
    | some other =>
      obtain ⟨member, same⟩ := Scope.mem_of_binding? found
      rw [orderly.eq_of_name member listed same]

/-- Searching for a variable finds the one that the name means. -/
theorem Store.Orderly.means_iff (orderly : store.Orderly) :
    store.Means id name owner binding ↔ store.binding? id name = some (owner, binding) := by
  rw [Store.binding?, List.findSome?_eq_some_iff]
  constructor
  · rintro ⟨⟨inner, outer, chain, passed⟩, ⟨scope, found, listed⟩, named⟩
    refine ⟨inner, owner, outer, chain, ?_, ?_⟩
    · have held := (orderly owner scope found).binding?_iff.mpr ⟨listed, named⟩
      simp [found, held]
    · intro other member
      cases known : store.scope? other with
      | none => rfl
      | some scope => simp [Scope.binding?_eq_none.mpr (passed other member scope known)]
  · rintro ⟨inner, place, outer, chain, here, passed⟩
    obtain ⟨own, atPlace, ⟨⟩⟩ := Option.map_eq_some_iff.mp here
    obtain ⟨scope, found, held⟩ := Option.bind_eq_some_iff.mp atPlace
    obtain ⟨listed, named⟩ := Scope.mem_of_binding? held
    refine ⟨⟨inner, outer, chain, ?_⟩, ⟨scope, found, listed⟩, named⟩
    intro other member scope known
    have missing := passed other member
    rw [known, Option.map_eq_none_iff] at missing
    exact Scope.binding?_eq_none.mp missing

theorem Store.assign_eq (store : Store) (id : ScopeId) (name : String) (value : Value) :
    store.assign id name value =
      match store.binding? id name with
      | none => .error (.undeclaredVariable name)
      | some (owner, binding) =>
        match value.coerce? binding.type with
        | none => .error (.typeMismatch (.assignment name value.kind binding.type))
        | some stored => .ok ⟨store.scopes.modify owner (·.setValue name stored)⟩ := by
  cases found : store.binding? id name with
  | none => rw [Store.assign, found]
  | some place =>
    obtain ⟨owner, binding⟩ := place
    obtain ⟨-, scope, -, held⟩ := Store.binding?_some found
    have named := (Scope.mem_of_binding? held).2
    rw [Store.assign, found]
    dsimp only
    rw [Binding.accept, named]
    cases value.coerce? binding.type <;> rfl

/-- An assignment finds no variable exactly where reading finds none. -/
theorem Store.assign_undeclared_iff (missing : String) :
    store.assign id name value = .error (.undeclaredVariable missing) ↔
      store.get id name = .error (.undeclaredVariable missing) := by
  rw [Store.assign_eq, Store.get]
  cases store.binding? id name with
  | none => simp
  | some place =>
    obtain ⟨owner, binding, type, held⟩ := place
    cases coerced : value.coerce? type <;> cases held <;> simp [coerced]

theorem Store.Orderly.assign_mismatch_iff (orderly : store.Orderly) (mismatch : Mismatch) :
    store.assign id name value = .error (.typeMismatch mismatch) ↔
      ∃ owner binding, store.Means id name owner binding ∧ value.coerce? binding.type = none ∧
        mismatch = .assignment name value.kind binding.type := by
  simp only [orderly.means_iff]
  rw [Store.assign_eq]
  cases store.binding? id name with
  | none => simp
  | some place =>
    obtain ⟨owner, binding⟩ := place
    cases coerced : value.coerce? binding.type with
    | none => simp [coerced, eq_comm]
    | some stored => simp [coerced]

theorem Store.Orderly.assign_ok_iff (orderly : store.Orderly) :
    store.assign id name value = .ok after ↔
      ∃ owner binding stored, store.Means id name owner binding ∧
        value.coerce? binding.type = some stored ∧
        after = ⟨store.scopes.modify owner (·.setValue name stored)⟩ := by
  simp only [orderly.means_iff]
  rw [Store.assign_eq]
  cases store.binding? id name with
  | none => simp
  | some place =>
    obtain ⟨owner, binding⟩ := place
    cases coerced : value.coerce? binding.type with
    | none => simp [coerced]
    | some stored => simp [coerced, eq_comm]

/-- In an orderly scope a new value goes to one variable. -/
theorem Scope.Orderly.setValue_eq {front back : List Binding} (orderly : scope.Orderly)
    (split : scope.bindings = front ++ binding :: back) :
    scope.setValue binding.name stored =
      { scope with bindings := front ++ { binding with value := some stored } :: back } := by
  have distinct := orderly.distinct
  rw [split, List.map_append, List.map_cons, List.nodup_append, List.nodup_cons] at distinct
  obtain ⟨-, ⟨behind, -⟩, apart⟩ := distinct
  have keep (others : List Binding) (no : binding.name ∉ others.map Binding.name) :
      others.map (fun other => if other.name = binding.name then
        { other with value := some stored } else other) = others := by
    refine (List.map_congr_left fun other listed => ?_).trans (List.map_id _)
    have different : other.name ≠ binding.name := fun same =>
      no (same ▸ List.mem_map_of_mem listed)
    rw [if_neg different, id]
  rw [Scope.setValue, split, List.map_append, List.map_cons, if_pos rfl, keep back behind,
    keep front fun listed => apart _ listed _ List.mem_cons_self rfl]

theorem Store.scope?_modify {change : Scope → Scope} (other : ScopeId) :
    (Store.mk (store.scopes.modify owner change)).scope? other =
      if owner = other then (store.scope? other).map change else store.scope? other :=
  Array.getElem?_modify

theorem Store.Orderly.replaces (orderly : store.Orderly) (means : store.Means id name owner binding)
    (stored : Value) :
    store.Replaces owner binding { binding with value := some stored }
      ⟨store.scopes.modify owner (·.setValue name stored)⟩ := by
  obtain ⟨-, ⟨scope, found, listed⟩, rfl⟩ := means
  obtain ⟨front, back, split⟩ := List.append_of_mem listed
  refine ⟨by simp [Store.size], ?_, scope, front, back, found, split, ?_⟩
  · intro other different
    rw [Store.scope?_modify, if_neg (Ne.symm different)]
  · rw [Store.scope?_modify, if_pos rfl, found, Option.map_some,
      (orderly owner scope found).setValue_eq split]

theorem Scope.binding?_setValue (scope : Scope) (name other : String) (value : Value) :
    (scope.setValue name value).binding? other = (scope.binding? other).map fun binding =>
      if binding.name = name then { binding with value := some value } else binding := by
  rw [Scope.binding?, Scope.setValue, List.find?_map, Scope.binding?]
  congr 2
  funext binding
  by_cases same : binding.name = name <;> simp [same]

/-- After an assignment every name means the variable that it meant before, with its new value if it
is the one that was assigned. -/
theorem Store.binding?_modify (id : ScopeId) (other : String) :
    (Store.mk (store.scopes.modify owner (·.setValue name stored))).binding? id other =
      (store.binding? id other).map fun (place, binding) =>
        if place = owner ∧ binding.name = name then (place, { binding with value := some stored })
        else (place, binding) := by
  have chain : (Store.mk (store.scopes.modify owner (·.setValue name stored))).chain id =
      store.chain id := by
    rw [Store.chain, Store.scope?_modify, Store.chain]
    by_cases same : owner = id
    · rw [if_pos same]
      cases store.scope? id <;> rfl
    · rw [if_neg same]
  rw [Store.binding?, chain, Store.binding?, List.map_findSome?]
  congr 1
  funext place
  rw [Function.comp_apply, Store.scope?_modify]
  cases store.scope? place with
  | none => simp
  | some scope =>
    cases held : scope.binding? other with
    | none => by_cases same : owner = place <;> simp [same, Scope.binding?_setValue, held]
    | some binding =>
      by_cases same : owner = place
      · by_cases named : binding.name = name <;>
          simp [same, Scope.binding?_setValue, held, named]
      · simp [same, held, Ne.symm same]

/-- Reading after an assignment. -/
theorem Store.Orderly.get_modify (orderly : store.Orderly)
    (means : store.Means id name owner binding) (stored : Value) (reader : ScopeId)
    (read : String) :
    (store.Means reader read owner binding →
      (Store.mk (store.scopes.modify owner (·.setValue name stored))).get reader read =
        .ok stored) ∧
    (¬ store.Means reader read owner binding →
      (Store.mk (store.scopes.modify owner (·.setValue name stored))).get reader read =
        store.get reader read) := by
  rw [orderly.means_iff, Store.get, Store.binding?_modify, Store.get]
  constructor
  · intro same
    rw [same]
    simp [means.named]
  · intro different
    cases found : store.binding? reader read with
    | none => rfl
    | some place =>
      obtain ⟨place, other⟩ := place
      have apart : ¬ (place = owner ∧ other.name = name) := by
        rintro ⟨rfl, same⟩
        obtain ⟨-, ⟨scope, atOwner, listed⟩, named⟩ := means
        obtain ⟨-, scope', atOwner', held⟩ := Store.binding?_some found
        obtain rfl : scope = scope' := Option.some.inj (atOwner.symm.trans atOwner')
        have member := (Scope.mem_of_binding? held).1
        have equal := (orderly _ scope atOwner).eq_of_name member listed (same.trans named.symm)
        rw [equal] at found
        exact different found
      simp [apart]

end

section Failures

variable {graph : ScopeGraph} {id : ScopeId} {op : ScopeOp} {failure : ScopeFailure}

theorem ScopeGraph.perform_of_error (failed : graph.step id op = .error failure) :
    graph.perform id op = (graph, .error failure) := by
  rw [ScopeGraph.perform, failed]

theorem ScopeGraph.Reachable.perform (reachable : graph.Reachable) (id : ScopeId) (op : ScopeOp) :
    (graph.perform id op).1.Reachable := by
  rw [ScopeGraph.perform]
  split
  · rename_i stepped
    exact .step reachable stepped
  · exact reachable

theorem ScopeGraph.scope?_of_held (held : graph.held id = true) :
    ∃ scope, graph.store.scope? id = some scope := by
  have bound : id < graph.store.size := by simpa using (Bool.and_eq_true_iff.mp held).1
  exact ⟨_, Array.getElem?_eq_getElem bound⟩

theorem ScopeGraph.step_assign (held : graph.held id = true) (name : String) (value : Value) :
    graph.step id (.assign name value) =
      match graph.store.assign id name value with
      | .ok after => .ok ({ graph with store := after }, .done)
      | .error cause => .error (.fault cause) := by
  obtain ⟨scope, found⟩ := ScopeGraph.scope?_of_held held
  simp only [ScopeGraph.step, found, held, Bool.and_self, if_true, ScopeGraph.apply]
  cases graph.store.assign id name value <;> rfl

theorem ScopeGraph.step_get (held : graph.held id = true) (name : String) :
    graph.step id (.get name) =
      match graph.store.get id name with
      | .ok value => .ok (graph, .value value)
      | .error cause => .error (.fault cause) := by
  obtain ⟨scope, found⟩ := ScopeGraph.scope?_of_held held
  simp only [ScopeGraph.step, found, held, Bool.and_self, if_true, ScopeGraph.apply]
  cases graph.store.get id name <;> rfl

theorem Action.updateStore_error {change : ScopeId → Store → Except Fault Store} {stop : RunStop}
    {machine after : Machine} (failed : updateStore change machine = .error stop after) :
    after = machine := by
  rw [updateStore_eq] at failed
  split at failed
  · cases failed
  · cases failed
    rfl

theorem Action.declare_error {decl : Decl} {stop : RunStop} {machine after : Machine}
    (failed : declare decl machine = .error stop after) : after.store = machine.store := by
  cases decl with
  | var name type =>
    rw [declare] at failed
    rw [updateStore_error failed]
  | routine heading declarations body =>
    -- The event noted first is no part of the store.
    rw [declare, get_bind, bind_of_ok (note_apply _ _)] at failed
    rw [updateStore_error failed]

end Failures

/-- The laws of variables, in every graph that operations on scopes lead to and for every two of its
scopes. An assignment finds no variable exactly where reading finds none, and it refuses a value
exactly where the variable that the name means does not take it. One that succeeds gives the value,
as the variable stores it, to that one variable: a name that means the same variable reads it, and
every other name reads as before. What fails leaves all scopes as they were, in the graph and in a
run, so the laws go on to hold after it. -/
theorem scope_variable_laws {graph : ScopeGraph} (reachable : graph.Reachable) (id : ScopeId)
    (name : String) (value : Value) :
    (∀ missing, graph.store.assign id name value = .error (.undeclaredVariable missing) ↔
      graph.store.get id name = .error (.undeclaredVariable missing)) ∧
    (∀ mismatch, graph.store.assign id name value = .error (.typeMismatch mismatch) ↔
      ∃ owner binding, graph.store.Means id name owner binding ∧
        value.coerce? binding.type = none ∧
        mismatch = .assignment name value.kind binding.type) ∧
    ((∃ after, graph.store.assign id name value = .ok after) ↔
      ∃ owner binding, graph.store.Means id name owner binding ∧
        (value.coerce? binding.type).isSome) ∧
    (∀ after, graph.store.assign id name value = .ok after →
      ∃ owner binding stored, graph.store.Means id name owner binding ∧
        value.coerce? binding.type = some stored ∧
        graph.store.Replaces owner binding { binding with value := some stored } after ∧
        ∀ reader read,
          (graph.store.Means reader read owner binding → after.get reader read = .ok stored) ∧
          (¬ graph.store.Means reader read owner binding →
            after.get reader read = graph.store.get reader read)) ∧
    (graph.held id → graph.step id (.assign name value) =
        (match graph.store.assign id name value with
        | .ok after => .ok ({ graph with store := after }, .done)
        | .error cause => .error (.fault cause)) ∧
      graph.step id (.get name) =
        match graph.store.get id name with
        | .ok value => .ok (graph, .value value)
        | .error cause => .error (.fault cause)) ∧
    (∀ op failure, graph.step id op = .error failure →
      graph.perform id op = (graph, .error failure)) ∧
    (∀ op, (graph.perform id op).1.Reachable) ∧
    ∀ machine stop after,
      (Action.assign name value machine = .error stop after → after = machine) ∧
      ∀ decl, Action.declare decl machine = .error stop after → after.store = machine.store := by
  have orderly := reachable.orderly
  refine ⟨Store.assign_undeclared_iff, orderly.assign_mismatch_iff, ?_, ?_,
    fun held => ⟨ScopeGraph.step_assign held name value, ScopeGraph.step_get held name⟩,
    fun op failure => ScopeGraph.perform_of_error, reachable.perform id,
    fun machine stop after => ⟨Action.updateStore_error, fun decl => Action.declare_error⟩⟩
  · simp [orderly.assign_ok_iff, Option.isSome_iff_exists]
  · intro after assigned
    obtain ⟨owner, binding, stored, means, coerced, rfl⟩ := orderly.assign_ok_iff.mp assigned
    exact ⟨owner, binding, stored, means, coerced, orderly.replaces means stored,
      orderly.get_modify means stored⟩

/-- Of two scopes inside one that was given up, the first assigns to a variable around it, and the
second does not see that, having a variable of that name itself. -/
theorem scope_variable_laws_shadowed : ∃ graph : ScopeGraph, graph.Reachable ∧
    graph.alive 0 = true ∧ graph.held 0 = false ∧
    ∃ after, graph.store.assign 1 "x" (.integer 3) = .ok after ∧
      after.get 1 "x" = .ok (.real (Float.ofInt 3)) ∧ after.get 2 "x" = .ok (.integer 7) := by
  have outer := @ScopeGraph.Reachable.step _ _ 0 (.declareVar "x" .real) _ .initial rfl
  have first := @ScopeGraph.Reachable.step _ _ 0 (.child "first") _ outer rfl
  have second := @ScopeGraph.Reachable.step _ _ 0 (.child "second") _ first rfl
  have shadowed := @ScopeGraph.Reachable.step _ _ 2 (.declareVar "x" .integer) _ second rfl
  have assigned := @ScopeGraph.Reachable.step _ _ 2 (.assign "x" (.integer 7)) _ shadowed rfl
  have dropped := @ScopeGraph.Reachable.step _ _ 0 .drop _ assigned rfl
  refine ⟨_, dropped, rfl, rfl, _, rfl, ?_⟩
  obtain ⟨-, -, -, succeeds, -⟩ := scope_variable_laws dropped 1 "x" (.integer 3)
  obtain ⟨owner, binding, stored, means, coerced, -, reads⟩ := succeeds _ rfl
  obtain ⟨rfl, rfl⟩ : owner = 0 ∧ binding = ⟨"x", .real, none⟩ := by
    have found := dropped.orderly.means_iff.mp means
    cases found
    exact ⟨rfl, rfl⟩
  cases coerced
  refine ⟨(reads 1 "x").1 means, ((reads 2 "x").2 fun same => ?_).trans rfl⟩
  cases dropped.orderly.means_iff.mp same

end MiniPascal
