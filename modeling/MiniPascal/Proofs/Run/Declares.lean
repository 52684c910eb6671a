import MiniPascal.Proofs.Scope.Declared

namespace MiniPascal

variable {below store : Store} {scope : Scope} {sink : Sink} {events : List RunEvent}

@[simp] theorem Machine.current_push :
    (Machine.mk (below.push scope) sink events).current = below.size := by
  simp [Machine.current]

namespace Action

theorem get_bind {α : Type} (next : Machine → Action α) (machine : Machine) :
    (get >>= next) machine = next machine machine := rfl

theorem updateStore_eq (change : ScopeId → Store → Except Fault Store) (machine : Machine) :
    updateStore change machine =
      match change machine.current machine.store with
      | .ok store => .ok () { machine with store := store }
      | .error cause => .error (.fault cause) machine := by
  rw [updateStore, get_bind]
  cases change machine.current machine.store with
  | ok store => rfl
  | error cause => rfl

theorem updateStore_push (below : Store) (scope : Scope) (sink : Sink) (events : List RunEvent)
    (change : ScopeId → Scope → Except Fault Scope) :
    updateStore (fun current store => store.update current (change current))
        ⟨below.push scope, sink, events⟩ =
      match change below.size scope with
      | .ok after => .ok () ⟨below.push after, sink, events⟩
      | .error cause => .error (.fault cause) ⟨below.push scope, sink, events⟩ := by
  rw [updateStore_eq, Machine.current_push]
  simp only [Store.update, Store.scope?_push_size]
  cases change below.size scope with
  | error cause => rfl
  | ok after =>
    have replaced : (below.push scope).set below.size after = below.push after := Store.set_push
    simp only [bind, Except.bind, pure, Except.pure, replaced]

/-- A declaration changes the latest scope only, and fails where the name is taken there. -/
theorem declare_push (below : Store) (scope : Scope) (sink : Sink) (events : List RunEvent)
    (decl : Decl) : ∃ noted,
    declare decl ⟨below.push scope, sink, events⟩ =
      if decl.name.name ∈ scope.names then
        .error (.fault (.duplicateDeclaration decl.name.name)) ⟨below.push scope, sink, noted⟩
      else .ok () ⟨below.push (scope.add below.size decl), sink, noted⟩ := by
  cases decl with
  | var name type =>
    refine ⟨events, ?_⟩
    have declared := updateStore_push below scope sink events fun _ scope =>
      scope.declareVar name.name type
    rw [Scope.declareVar_eq below.size] at declared
    refine declared.trans ?_
    by_cases taken : name.name ∈ scope.names <;> simp [Decl.name, taken]
  | routine heading declarations body =>
    refine ⟨.declare heading.kind heading.name.name scope.name :: events, ?_⟩
    have declared := updateStore_push below scope sink
      (.declare heading.kind heading.name.name scope.name :: events) fun id scope =>
        scope.declareRoutine ⟨⟨heading, ⟨declarations, body⟩⟩, id⟩
    rw [Scope.declareRoutine_eq] at declared
    rw [declare, get_bind, Machine.current_push, Store.scope?_push_size]
    refine declared.trans ?_
    by_cases taken : heading.name.name ∈ scope.names <;> simp [Decl.name, taken]

/-- What has been made of a list of declarations when it ends: all of it, or what stands before the
first whose name is taken. -/
inductive DeclaresAll (below : Store) (scope : Scope) (sink : Sink) (declarations : List Decl) :
    EStateM.Result RunStop Machine Unit → Prop where
  | all {noted : List RunEvent} (sound : scope.Sound below.size →
      (scope.addAll below.size declarations).Sound below.size) :
    DeclaresAll below scope sink declarations
      (.ok () ⟨below.push (scope.addAll below.size declarations), sink, noted⟩)
  | taken (made : List Decl) {rest : List Decl} {decl : Decl} {noted : List RunEvent}
    (stopped : declarations = made ++ decl :: rest)
    (taken : decl.name.name ∈ (scope.addAll below.size made).names)
    (sound : scope.Sound below.size → (scope.addAll below.size made).Sound below.size) :
    DeclaresAll below scope sink declarations
      (.error (.fault (.duplicateDeclaration decl.name.name))
        ⟨below.push (scope.addAll below.size made), sink, noted⟩)

theorem declareAll_push (below : Store) (scope : Scope) (sink : Sink) (events : List RunEvent)
    (declarations : List Decl) :
    DeclaresAll below scope sink declarations
      (declareAll declarations ⟨below.push scope, sink, events⟩) := by
  induction declarations generalizing scope events with
  | nil => exact .all id
  | cons first rest ih =>
    obtain ⟨noted, step⟩ := declare_push below scope sink events first
    rw [declareAll]
    split at step
    · rename_i taken
      rw [bind_of_error step]
      exact .taken [] rfl taken id
    · rename_i fresh
      rw [bind_of_ok step]
      have later := ih (scope.add below.size first) noted
      generalize declareAll rest _ = outcome at later ⊢
      cases later with
      | all sound => exact .all fun before => sound (before.add fresh)
      | taken made stopped taken sound =>
        exact .taken (first :: made) (by rw [stopped, List.cons_append]) taken fun before =>
          sound (before.add fresh)

/-- Where no name is taken, every declaration is made. -/
theorem declareAll_ok (below : Store) (sink : Sink) (events : List RunEvent)
    {declarations : List Decl} (distinct : (Decl.names declarations).Nodup)
    (fresh : ∀ name ∈ Decl.names declarations, name ∉ scope.names) :
    ∃ noted, declareAll declarations ⟨below.push scope, sink, events⟩ =
      .ok () ⟨below.push (scope.addAll below.size declarations), sink, noted⟩ := by
  have made := declareAll_push below scope sink events declarations
  generalize declareAll declarations _ = outcome at made ⊢
  cases made with
  | all sound => exact ⟨_, rfl⟩
  | taken made stopped taken sound =>
    subst stopped
    simp only [Decl.names, List.map_append, List.map_cons] at distinct fresh
    rcases (Scope.mem_names_addAll made).mp taken with old | new
    · exact absurd old (fresh _ (by simp))
    · exact absurd rfl ((List.nodup_append.mp distinct).2.2 _ new _ List.mem_cons_self)

end Action

end MiniPascal
