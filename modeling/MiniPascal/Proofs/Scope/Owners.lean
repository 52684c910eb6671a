import MiniPascal.Proofs.Scope.Typed

namespace MiniPascal

/-- From every scope one searches scopes that exist, each directly inside the next and the owner of
its routines. -/
def Store.AllLinked (store : Store) : Prop := ∀ id, store.Linked (store.chain id)

section

variable {store after : Store} {scope changed : Scope} {id other : ScopeId} {name : String}
  {chain : List ScopeId}

theorem Store.allLinked_initial : Store.initial.AllLinked := by
  intro id
  cases id with
  | zero => exact .cons rfl (Scope.sound_of_empty _ _) .nil
  | succ id => exact .nil

theorem Store.AllLinked.inner (linked : store.AllLinked) (name : String) (parent : ScopeId) :
    (store.push (store.inner name parent)).AllLinked := by
  intro id
  by_cases below : id < store.size
  · rw [Store.chain, Store.scope?_push_of_lt below]
    exact (linked id).push
  · by_cases latest : id = store.size
    · have outer : (store.push (store.inner name parent)).Linked (store.chain parent) :=
        (linked parent).push
      rw [latest, Store.chain_of_some Store.scope?_push_size]
      exact .cons Store.scope?_push_size (Scope.sound_of_empty _ _) outer
    · have missing : (store.push (store.inner name parent)).scope? id = none := by
        rw [Store.scope?, Array.getElem?_eq_none_iff]
        have bound : (store.push (store.inner name parent)).scopes.size = store.size + 1 :=
          Store.size_push
        rw [bound]
        exact Nat.lt_of_le_of_ne (Nat.not_lt.mp below) (Ne.symm latest)
      rw [Store.chain, missing]
      exact .nil

theorem Store.scope?_set (found : store.scope? id = some scope) :
    (store.set id changed).scope? other =
      if other = id then some changed else store.scope? other := by
  have bound : id < store.scopes.size := Store.lt_size found
  rw [Store.set, Store.scope?, Array.getElem?_setIfInBounds]
  by_cases same : other = id
  · rw [if_pos same.symm, if_pos same, if_pos bound]
  · rw [if_neg (Ne.symm same), if_neg same, Store.scope?]

/-- A scope may be replaced by one in the same place that still owns its routines. -/
theorem Store.Linked.set (linked : store.Linked chain) (found : store.scope? id = some scope)
    (sound : changed.Sound id) (place : changed.enclosing = scope.enclosing) :
    (store.set id changed).Linked chain := by
  induction linked with
  | nil => exact .nil
  | @cons inner old atInner known around ih =>
    by_cases same : inner = id
    · subst same
      obtain rfl : old = scope := Option.some.inj (atInner.symm.trans found)
      rw [← place] at ih ⊢
      exact .cons (by rw [Store.scope?_set found, if_pos rfl]) sound ih
    · exact .cons (by rw [Store.scope?_set found, if_neg same, atInner]) known ih

theorem Store.chain_set (found : store.scope? id = some scope)
    (place : changed.enclosing = scope.enclosing) :
    (store.set id changed).chain other = store.chain other := by
  rw [Store.chain, Store.chain, Store.scope?_set found]
  by_cases same : other = id
  · rw [if_pos same, same, found]
    exact congrArg (id :: ·) place
  · rw [if_neg same]

theorem Store.AllLinked.update {change : Scope → Except Fault Scope} (linked : store.AllLinked)
    (keeps : ∀ {scope changed : Scope}, scope.Sound id → change scope = .ok changed →
      changed.Sound id ∧ changed.enclosing = scope.enclosing)
    (taken : store.update id change = .ok after) : after.AllLinked := by
  rw [Store.update] at taken
  split at taken
  · cases taken
    exact linked
  · rename_i scope found
    obtain ⟨changed, made, taken⟩ := except_bind_ok.mp taken
    cases taken
    have own := linked id
    rw [Store.chain_of_some found] at own
    obtain ⟨same, atSame, sound⟩ := own.scope_of_mem List.mem_cons_self
    obtain rfl : scope = same := Option.some.inj (found.symm.trans atSame)
    obtain ⟨sound, place⟩ := keeps sound made
    intro other
    rw [Store.chain_set found place]
    exact (linked other).set found sound place

theorem Scope.Sound.declareVar {type : VarType} (sound : scope.Sound id)
    (taken : scope.declareVar name type = .ok changed) :
    changed.Sound id ∧ changed.enclosing = scope.enclosing := by
  have orderly := sound.orderly.declareVar taken
  rw [Scope.declareVar] at taken
  split at taken
  · cases taken
  · cases taken
    exact ⟨orderly.sound sound.owned, rfl⟩

theorem Scope.Sound.declareRoutine {closure : Closure} (own : closure.home = id)
    (sound : scope.Sound id) (taken : scope.declareRoutine closure = .ok changed) :
    changed.Sound id ∧ changed.enclosing = scope.enclosing := by
  have orderly := sound.orderly.declareRoutine taken
  rw [Scope.declareRoutine] at taken
  split at taken
  · cases taken
  · cases taken
    refine ⟨orderly.sound fun listed member => ?_, rfl⟩
    rcases List.mem_append.mp member with old | new
    · exact sound.owned listed old
    · rw [List.mem_singleton.mp new, own]

theorem Store.AllLinked.assign {value : Value} (linked : store.AllLinked)
    (taken : store.assign id name value = .ok after) : after.AllLinked := by
  have evolves := Store.assign_evolves (fun owner member _ => (linked id).orderly member) taken
  intro other
  rw [evolves.chain_eq]
  exact evolves.linked (linked other)

end

/-- A routine is declared with the scope that gets it as its owner. -/
def ScopeOp.OwnedBy (id : ScopeId) : ScopeOp → Prop
  | .declareRoutine _ owner => owner = id
  | _ => True

/-- The graphs that operations lead to as long as every scope owns the routines that it gets. -/
inductive ScopeGraph.ReachableOwned : ScopeGraph → Prop where
  | initial : ReachableOwned .initial
  | step {graph next : ScopeGraph} {id : ScopeId} {op : ScopeOp} {answer : ScopeAnswer}
    (reachable : ReachableOwned graph) (owned : op.OwnedBy id)
    (stepped : graph.step id op = .ok (next, answer)) : ReachableOwned next

section

variable {graph next : ScopeGraph} {id owner : ScopeId} {op : ScopeOp} {answer : ScopeAnswer}
  {scope : Scope} {name : String}

theorem ScopeGraph.apply_allLinked (linked : graph.store.AllLinked) (owned : op.OwnedBy id)
    (applied : graph.apply id scope op = .ok (next, answer)) : next.store.AllLinked := by
  cases op with
  | child name =>
    cases applied
    exact linked.inner name id
  | drop | localValue name | resolve name | name | bindings =>
    cases applied
    exact linked
  | declareVar name type =>
    obtain ⟨store, taken, applied⟩ := except_bind_ok.mp applied
    cases applied
    exact linked.update Scope.Sound.declareVar taken
  | declareRoutine name owner =>
    obtain ⟨store, taken, applied⟩ := except_bind_ok.mp applied
    cases applied
    have own : (Closure.mk (.stub name) owner).home = id := owned
    exact linked.update (Scope.Sound.declareRoutine own) taken
  | assign name value =>
    obtain ⟨store, taken, applied⟩ := except_bind_ok.mp applied
    cases applied
    exact linked.assign taken
  | get name =>
    obtain ⟨value, -, applied⟩ := except_bind_ok.mp applied
    cases applied
    exact linked

theorem ScopeGraph.ReachableOwned.allLinked (reachable : graph.ReachableOwned) :
    graph.store.AllLinked := by
  induction reachable with
  | initial => exact Store.allLinked_initial
  | step reachable owned stepped ih =>
    obtain ⟨-, scope, -, applied⟩ := ScopeGraph.step_ok stepped
    exact ScopeGraph.apply_allLinked ih owned applied

theorem ScopeGraph.alive_iff : graph.alive id = true ↔
    ∃ inner, graph.held inner = true ∧ id ∈ graph.store.chain inner := by
  simp only [ScopeGraph.alive, List.any_eq_true, List.mem_range, Bool.and_eq_true,
    List.contains_iff_mem]
  constructor
  · rintro ⟨inner, -, held, member⟩
    exact ⟨inner, held, member⟩
  · rintro ⟨inner, held, member⟩
    have bound := held
    simp only [ScopeGraph.held, Bool.and_eq_true, decide_eq_true_eq] at bound
    exact ⟨inner, bound.1, held, member⟩

/-- A scope that lives keeps those around it alive. -/
theorem ScopeGraph.alive_around (linked : graph.store.AllLinked) (alive : graph.alive id = true)
    (around : owner ∈ graph.store.chain id) : graph.alive owner = true := by
  obtain ⟨inner, held, member⟩ := ScopeGraph.alive_iff.mp alive
  have suffix := ((linked inner).chain_suffix member).1
  exact ScopeGraph.alive_iff.mpr ⟨inner, held, suffix.subset around⟩

theorem Store.routine?_name {store : Store} {closure : Closure}
    (visible : store.routine? id name = some closure) : closure.name = name := by
  obtain ⟨owner, -, found⟩ := List.exists_of_findSome?_eq_some visible
  obtain ⟨scope, -, listed⟩ := Option.bind_eq_some_iff.mp found
  have named := List.find?_some listed
  exact beq_iff_eq.mp named

theorem ScopeGraph.ReachableOwned.home_alive {closure : Closure} (reachable : graph.ReachableOwned)
    (alive : graph.alive id = true) (visible : graph.store.routine? id name = some closure) :
    closure.home ∈ graph.store.chain id ∧ graph.alive closure.home = true := by
  have member := (reachable.allLinked id).home_mem visible
  exact ⟨member, ScopeGraph.alive_around reachable.allLinked alive member⟩

/-- What a scope answers about a routine names an owner that lives. -/
theorem ScopeGraph.ReachableOwned.resolve_owner {found : String} {owner : Option String}
    (reachable : graph.ReachableOwned)
    (stepped : graph.step id (.resolve name) = .ok (next, .routine (some (found, owner)))) :
    found = name ∧ owner.isSome = true := by
  obtain ⟨held, scope, atId, applied⟩ := ScopeGraph.step_ok stepped
  have own : id ∈ graph.store.chain id := by
    rw [Store.chain_of_some atId]
    exact List.mem_cons_self
  have alive : graph.alive id = true := ScopeGraph.alive_iff.mpr ⟨id, held, own⟩
  cases visible : graph.store.routine? id name with
  | none =>
    rw [ScopeGraph.apply, visible] at applied
    cases applied
  | some closure =>
    obtain ⟨member, homeAlive⟩ := reachable.home_alive alive visible
    obtain ⟨home, atHome, -⟩ := (reachable.allLinked id).scope_of_mem member
    rw [ScopeGraph.apply, visible] at applied
    cases applied
    refine ⟨Store.routine?_name visible, ?_⟩
    rw [ScopeGraph.ownerName?, if_pos homeAlive, atHome]
    rfl

end

end MiniPascal
