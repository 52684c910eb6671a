import MiniPascal.Proofs.Scope.Laws
import MiniPascal.Proofs.Scope.Outward
import MiniPascal.Proofs.Scope.Owners

namespace MiniPascal

/-- Scopes whose tables are in step and whose links lead out. A search along the links, from slot to
variable in each scope, ends with the variable or the routine that the store finds. -/
structure Store.Coherent (store : Store) : Prop where
  tables : ∀ id scope, store.scope? id = some scope → scope.InStep
  outward : ∀ id scope, store.scope? id = some scope → store.LeadsOut id (store.chain id)
  bindings : ∀ id scope, store.scope? id = some scope → ∀ name,
    store.Climbs (fun owner scope => ((scope.index name).bind (scope.bindings[·]?)).map (owner, ·)) id
      (store.binding? id name)
  routines : ∀ id scope, store.scope? id = some scope → ∀ name,
    store.Climbs (fun _ scope => scope.routine? name) id (store.routine? id name)

/-- A store in which every scope of another still has its variables in their places, and perhaps
more behind them. -/
def Store.Appends (before after : Store) : Prop :=
  ∀ id scope, before.scope? id = some scope →
    ∃ later, after.scope? id = some later ∧ scope.signature <+: later.signature

namespace ScopeGraph

/-- Performs operations one after another, also after one that fails. -/
def performAll (graph : ScopeGraph) (ops : List (ScopeId × ScopeOp)) : ScopeGraph :=
  ops.foldl (fun graph (id, op) => (graph.perform id op).1) graph

/-- The variable that an operation declares in a scope, if it is performed there and succeeds. -/
def noted (graph : ScopeGraph) (place : ScopeId) (op : ScopeOp) (id : ScopeId) :
    List (String × VarType) :=
  match op, (graph.perform place op).2 with
  | .declareVar name type, .ok _ => if place = id then [(name, type)] else []
  | _, _ => []

/-- The variables that operations declare in a scope with success, in the order of the operations. -/
def declaredIn (id : ScopeId) (graph : ScopeGraph) :
    List (ScopeId × ScopeOp) → List (String × VarType)
  | [] => []
  | (place, op) :: rest =>
    graph.noted place op id ++ (graph.perform place op).1.declaredIn id rest

/-- The scopes of a graph hold the variables of a journal, and it has none for other scopes. -/
structure Journals (graph : ScopeGraph) (journal : ScopeId → List (String × VarType)) : Prop where
  records : ∀ id scope, graph.store.scope? id = some scope → scope.Records (journal id)
  blank : ∀ id, graph.store.scope? id = none → journal id = []

end ScopeGraph

section

variable {store after : Store} {scope changed : Scope} {graph next : ScopeGraph}
  {id : ScopeId} {op : ScopeOp} {answer : ScopeAnswer} {name : String}
  {journal : ScopeId → List (String × VarType)}

theorem Store.Nested.coherent (nested : store.Nested)
    (recorded : ∀ id scope, store.scope? id = some scope → ∃ declared, scope.Records declared) :
    store.Coherent where
  tables id scope found := by
    obtain ⟨declared, records⟩ := recorded id scope found
    exact records.inStep
  outward id scope found := nested.leadsOut found
  bindings id scope found name := by
    have climbs := (nested.leadsOut found).climbs fun owner scope =>
      ((scope.index name).bind (scope.bindings[·]?)).map (owner, ·)
    have same : store.binding? id name = (store.chain id).findSome? fun owner =>
        (store.scope? owner).bind fun scope =>
          ((scope.index name).bind (scope.bindings[·]?)).map (owner, ·) := by
      rw [Store.binding?]
      congr 1
      funext owner
      cases atOwner : store.scope? owner with
      | none => rfl
      | some scope =>
        obtain ⟨declared, records⟩ := recorded owner scope atOwner
        rw [Option.bind_some, Option.bind_some, records.binding?_eq]
    rwa [same]
  routines id scope found name := (nested.leadsOut found).climbs fun _ scope => scope.routine? name

/-- A scope that stands where another stood and has its variables, and perhaps more behind them. -/
structure Scope.Continues (before after : Scope) : Prop where
  place : after.enclosing = before.enclosing
  front : before.signature <+: after.signature

theorem Scope.Continues.declareVar {type : VarType}
    (taken : scope.declareVar name type = .ok changed) : scope.Continues changed := by
  rw [Scope.declareVar] at taken
  split at taken
  · cases taken
  · cases taken
    exact ⟨rfl, by simp [Scope.signature]⟩

theorem Scope.Continues.declareRoutine {closure : Closure}
    (taken : scope.declareRoutine closure = .ok changed) : scope.Continues changed := by
  rw [Scope.declareRoutine] at taken
  split at taken
  · cases taken
  · cases taken
    exact ⟨rfl, List.prefix_refl _⟩

namespace Store.Appends

theorem refl (store : Store) : store.Appends store :=
  fun _ scope found => ⟨scope, found, List.prefix_refl _⟩

theorem trans {middle : Store} (first : store.Appends middle) (second : middle.Appends after) :
    store.Appends after := by
  intro id scope found
  obtain ⟨later, atLater, front⟩ := first id scope found
  obtain ⟨last, atLast, longer⟩ := second id later atLater
  exact ⟨last, atLast, front.trans longer⟩

theorem push (store : Store) (added : Scope) : store.Appends (store.push added) :=
  fun _ scope found => ⟨scope, Store.scope?_push_of_some found, List.prefix_refl _⟩

theorem evolve {writable : List ScopeId} (evolves : store.Evolves writable after) :
    store.Appends after := by
  intro id scope found
  obtain ⟨later, atLater, step, -⟩ := evolves.scope id scope found
  exact ⟨later, atLater, step.signature ▸ List.prefix_refl _⟩

theorem set (found : store.scope? id = some scope) (continues : scope.Continues changed) :
    store.Appends (store.set id changed) := by
  intro other old atOther
  rw [Store.scope?_set found]
  by_cases same : other = id
  · subst same
    obtain rfl : scope = old := Option.some.inj (found.symm.trans atOther)
    exact ⟨changed, if_pos rfl, continues.front⟩
  · exact ⟨old, by rw [if_neg same, atOther], List.prefix_refl _⟩

end Store.Appends

theorem Store.update_ok {change : Scope → Except Fault Scope}
    (found : store.scope? id = some scope) (taken : store.update id change = .ok after) :
    ∃ changed, change scope = .ok changed ∧ after = store.set id changed := by
  rw [Store.update, found] at taken
  obtain ⟨changed, made, taken⟩ := except_bind_ok.mp taken
  cases taken
  exact ⟨changed, made, rfl⟩

theorem Store.Appends.update {change : Scope → Except Fault Scope}
    (taken : store.update id change = .ok after)
    (continues : ∀ scope changed, change scope = .ok changed → scope.Continues changed) :
    store.Appends after := by
  cases found : store.scope? id with
  | none =>
    rw [Store.update, found] at taken
    cases taken
    exact .refl _
  | some scope =>
    obtain ⟨changed, made, rfl⟩ := Store.update_ok found taken
    exact .set found (continues scope changed made)

theorem Store.Nested.set (nested : store.Nested) (found : store.scope? id = some scope)
    (continues : scope.Continues changed) : (store.set id changed).Nested := by
  refine nested.of_links fun other => ?_
  rw [Store.scope?_set found]
  by_cases same : other = id
  · rw [if_pos same, same, found, Option.map_some, Option.map_some, continues.place]
  · rw [if_neg same]

namespace ScopeGraph

theorem noted_of_error {failure : ScopeFailure} (failed : graph.step id op = .error failure)
    (other : ScopeId) : graph.noted id op other = [] := by
  cases op <;> simp only [noted, perform_of_error failed]

/-- A scope that is replaced keeps the journal if it records what is new in it. -/
theorem Journals.set (journals : graph.Journals journal) (more : ScopeId → List (String × VarType))
    (found : graph.store.scope? id = some scope) (records : changed.Records (journal id ++ more id))
    (others : ∀ other, other ≠ id → more other = []) :
    Journals { graph with store := graph.store.set id changed } fun id => journal id ++ more id := by
  constructor
  · intro other later atOther
    rw [Store.scope?_set found] at atOther
    by_cases same : other = id
    · rw [if_pos same] at atOther
      cases atOther
      rw [same]
      exact records
    · rw [if_neg same] at atOther
      rw [others other same, List.append_nil]
      exact journals.records other later atOther
  · intro other missing
    rw [Store.scope?_set found] at missing
    by_cases same : other = id
    · rw [if_pos same] at missing
      cases missing
    · rw [if_neg same] at missing
      rw [others other same, journals.blank other missing, List.append_nil]

theorem Journals.push (journals : graph.Journals journal) (name : String)
    (enclosing : List ScopeId) :
    Journals { graph with store := graph.store.push ⟨name, [], [], enclosing⟩ } journal := by
  have latest : graph.store.scope? graph.store.size = none :=
    Array.getElem?_eq_none_iff.mpr (Nat.le_refl _)
  constructor
  · intro id scope found
    rcases Store.scope?_push_cases found with ⟨-, found⟩ | ⟨rfl, rfl⟩
    · exact journals.records id scope found
    · rw [journals.blank _ latest]
      exact .empty name enclosing
  · intro id missing
    refine journals.blank id ?_
    cases found : graph.store.scope? id with
    | none => rfl
    | some scope =>
      rw [Store.scope?_push_of_some found] at missing
      cases missing

theorem Journals.assign {value : Value} (journals : graph.Journals journal)
    (taken : graph.store.assign id name value = .ok after) :
    Journals { graph with store := after } journal := by
  obtain ⟨owner, binding, stored, -, -, rfl⟩ := Store.assign_ok taken
  constructor
  · intro other later found
    rw [Store.scope?_modify] at found
    split at found
    · obtain ⟨scope, atOther, rfl⟩ := Option.map_eq_some_iff.mp found
      exact (journals.records other scope atOther).setValue name stored
    · exact journals.records other later found
  · intro other missing
    rw [Store.scope?_modify] at missing
    split at missing
    · exact journals.blank other (Option.map_eq_none_iff.mp missing)
    · exact journals.blank other missing

theorem Journals.step (journals : graph.Journals journal)
    (stepped : graph.step id op = .ok (next, answer)) :
    next.Journals fun other => journal other ++ graph.noted id op other := by
  obtain ⟨-, scope, found, applied⟩ := ScopeGraph.step_ok stepped
  have performed : graph.perform id op = (next, .ok answer) := by rw [perform, stepped]
  cases op with
  | declareVar name type =>
    obtain ⟨store, taken, applied⟩ := except_bind_ok.mp applied
    cases applied
    obtain ⟨changed, made, rfl⟩ := Store.update_ok found taken
    refine journals.set _ found ?_ ?_
    · simp only [noted, performed, if_true]
      exact (journals.records id scope found).declareVar made
    · intro other different
      simp only [noted, performed, if_neg (Ne.symm different)]
  | child name =>
    cases applied
    simp only [noted, List.append_nil]
    exact journals.push name (graph.store.chain id)
  | drop | localValue name | resolve name | name | bindings =>
    cases applied
    simp only [noted, List.append_nil]
    exact ⟨journals.records, journals.blank⟩
  | declareRoutine name owner =>
    obtain ⟨store, taken, applied⟩ := except_bind_ok.mp applied
    cases applied
    obtain ⟨changed, made, rfl⟩ := Store.update_ok found taken
    have records := (journals.records id scope found).declareRoutine made
    refine journals.set _ found ?_ ?_
    · simpa only [noted, List.append_nil] using records
    · exact fun _ _ => rfl
  | assign name value =>
    obtain ⟨store, taken, applied⟩ := except_bind_ok.mp applied
    cases applied
    simpa only [noted, List.append_nil] using journals.assign taken
  | get name =>
    obtain ⟨value, -, applied⟩ := except_bind_ok.mp applied
    cases applied
    simpa only [noted, List.append_nil] using journals

theorem Journals.perform (journals : graph.Journals journal) (id : ScopeId) (op : ScopeOp) :
    (graph.perform id op).1.Journals fun other => journal other ++ graph.noted id op other := by
  cases stepped : graph.step id op with
  | error failure =>
    rw [perform_of_error stepped]
    simpa only [noted_of_error stepped, List.append_nil] using journals
  | ok result =>
    rw [ScopeGraph.perform, stepped]
    exact journals.step stepped

theorem Journals.performAll (journals : graph.Journals journal) (ops : List (ScopeId × ScopeOp)) :
    (graph.performAll ops).Journals fun id => journal id ++ graph.declaredIn id ops := by
  induction ops generalizing graph journal with
  | nil => simpa [ScopeGraph.performAll, declaredIn] using journals
  | cons first rest ih =>
    obtain ⟨place, op⟩ := first
    have later := ih (journals.perform place op)
    simp only [List.append_assoc] at later
    exact later

/-- What an operation makes of a graph: it adds a scope inside one that is there, replaces one by a
scope that goes on from it, lets the scopes evolve, or leaves them alone. -/
theorem apply_changes (orderly : graph.store.Orderly) (found : graph.store.scope? id = some scope)
    (applied : graph.apply id scope op = .ok (next, answer)) :
    (∃ name, next.store = graph.store.push (graph.store.inner name id)) ∨
      (∃ changed, scope.Continues changed ∧ next.store = graph.store.set id changed) ∨
      ∃ writable, graph.store.Evolves writable next.store := by
  cases op with
  | child name =>
    cases applied
    exact .inl ⟨name, rfl⟩
  | drop | localValue name | resolve name | name | bindings =>
    cases applied
    exact .inr (.inr ⟨[], .refl _ _⟩)
  | declareVar name type =>
    obtain ⟨store, taken, applied⟩ := except_bind_ok.mp applied
    cases applied
    obtain ⟨changed, made, rfl⟩ := Store.update_ok found taken
    exact .inr (.inl ⟨changed, .declareVar made, rfl⟩)
  | declareRoutine name owner =>
    obtain ⟨store, taken, applied⟩ := except_bind_ok.mp applied
    cases applied
    obtain ⟨changed, made, rfl⟩ := Store.update_ok found taken
    exact .inr (.inl ⟨changed, .declareRoutine made, rfl⟩)
  | assign name value =>
    obtain ⟨store, taken, applied⟩ := except_bind_ok.mp applied
    cases applied
    exact .inr (.inr ⟨_, Store.assign_evolves (fun owner _ => orderly owner) taken⟩)
  | get name =>
    obtain ⟨value, -, applied⟩ := except_bind_ok.mp applied
    cases applied
    exact .inr (.inr ⟨[], .refl _ _⟩)

theorem Reachable.nested (reachable : graph.Reachable) : graph.store.Nested := by
  induction reachable with
  | initial => exact Store.nested_empty.push (.inl ⟨rfl, rfl⟩)
  | @step graph next id op answer reachable stepped ih =>
    obtain ⟨-, scope, found, applied⟩ := ScopeGraph.step_ok stepped
    rcases apply_changes reachable.orderly found applied with
      ⟨name, same⟩ | ⟨changed, continues, same⟩ | ⟨writable, evolves⟩
    · rw [same]
      exact ih.push (.inr ⟨id, Store.lt_size found, rfl⟩)
    · rw [same]
      exact ih.set found continues
    · exact ih.evolve evolves

theorem Reachable.appends (reachable : graph.Reachable) (id : ScopeId) (op : ScopeOp) :
    graph.store.Appends (graph.perform id op).1.store := by
  cases stepped : graph.step id op with
  | error failure =>
    rw [perform_of_error stepped]
    exact .refl _
  | ok result =>
    rw [ScopeGraph.perform, stepped]
    obtain ⟨-, scope, found, applied⟩ := ScopeGraph.step_ok stepped
    rcases apply_changes reachable.orderly found applied with
      ⟨name, same⟩ | ⟨changed, continues, same⟩ | ⟨writable, evolves⟩
    · exact same ▸ .push _ _
    · exact same ▸ .set found continues
    · exact .evolve evolves

theorem Reachable.performAll (reachable : graph.Reachable) (ops : List (ScopeId × ScopeOp)) :
    (graph.performAll ops).Reachable ∧ graph.store.Appends (graph.performAll ops).store := by
  induction ops generalizing graph with
  | nil => exact ⟨reachable, .refl _⟩
  | cons first rest ih =>
    have ⟨later, appends⟩ := ih (reachable.perform first.1 first.2)
    exact ⟨later, (reachable.appends first.1 first.2).trans appends⟩

theorem journals_initial : initial.Journals fun _ => [] := by
  constructor
  · intro id scope found
    cases id with
    | zero =>
      cases found
      exact .empty _ _
    | succ id => cases found
  · exact fun _ _ => rfl

/-- After any operations, the variables of a scope are those that were declared there with success. -/
theorem performAll_records {ops : List (ScopeId × ScopeOp)}
    (found : (initial.performAll ops).store.scope? id = some scope) :
    scope.Records (initial.declaredIn id ops) := by
  have journals := journals_initial.performAll ops
  exact journals.records id scope found

theorem performAll_coherent (ops : List (ScopeId × ScopeOp)) :
    (initial.performAll ops).store.Coherent :=
  (Reachable.initial.performAll ops).1.nested.coherent fun _ _ found =>
    ⟨_, performAll_records found⟩

theorem performAll_appends (ops more : List (ScopeId × ScopeOp)) :
    (initial.performAll ops).store.Appends (initial.performAll (ops ++ more)).store := by
  rw [ScopeGraph.performAll, ScopeGraph.performAll, List.foldl_append]
  exact ((Reachable.initial.performAll ops).1.performAll more).2

end ScopeGraph

end

end MiniPascal
