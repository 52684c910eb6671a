import MiniPascal.Proofs.Run.Declarations
import MiniPascal.Proofs.Run.Visited
import MiniPascal.Proofs.Scope.Coherence

namespace MiniPascal

open MiniPascal.Action

/-- A scope holds the variables of a block of the program: parameters and result, then the declared
ones in the order of the text, but for the declarations that are left to make. -/
def Program.Fills (program : Program) (left : List Decl) (scope : Scope) : Prop :=
  ∃ level ∈ program.levels, ∃ made, level.block.declarations = made ++ left ∧
    scope.Records (level.bound ++ made.filterMap Decl.var?)

/-- A new scope for an activation of a block, before its declarations. -/
structure Program.Frames (program : Program) (below : Store) (level : Level) (frame : Scope) :
    Prop where
  listed : level ∈ program.levels
  records : frame.Records level.bound
  inside : frame.Inside below

/-- The scopes of a run lie one in the other, and only the latest may have declarations left to
make. -/
structure Program.Grows (program : Program) (store : Store) : Prop where
  nested : store.Nested
  fills : ∀ id scope, store.scope? id = some scope →
    ∃ left, program.Fills left scope ∧ (id + 1 < store.size → left = [])

/-- The scopes of a run while code executes: they have all their declarations. -/
structure Program.Completes (program : Program) (store : Store) : Prop where
  nested : store.Nested
  fills : ∀ id scope, store.scope? id = some scope → program.Fills [] scope

section

variable {config : Config} {program : Program} {fuel : Nat} {sink : Sink} {point next : Point}
  {machine : Machine} {store below : Store} {scope frame : Scope} {left : List Decl}
  {declared : List (String × VarType)}

theorem Program.Completes.grows (completes : program.Completes store) : program.Grows store :=
  ⟨completes.nested, fun id scope found => ⟨[], completes.fills id scope found, fun _ => rfl⟩⟩

theorem Program.Grows.coherent (grows : program.Grows store) : store.Coherent := by
  refine grows.nested.coherent fun id scope found => ?_
  obtain ⟨left, ⟨level, -, made, -, records⟩, -⟩ := grows.fills id scope found
  exact ⟨_, records⟩

theorem Program.Completes.evolve {writable : List ScopeId} {after : Store}
    (completes : program.Completes store) (evolves : store.Evolves writable after) :
    program.Completes after := by
  refine ⟨completes.nested.evolve evolves, fun id later atLater => ?_⟩
  cases found : store.scope? id with
  | none =>
    rw [evolves.scope?_none found] at atLater
    cases atLater
  | some scope =>
    obtain ⟨other, atOther, step, -⟩ := evolves.scope id scope found
    obtain rfl : later = other := Option.some.inj (atLater.symm.trans atOther)
    obtain ⟨level, listed, made, split, records⟩ := completes.fills id scope found
    exact ⟨level, listed, made, split, records.evolve step⟩

/-- What is put on scopes that have all their declarations may still lack some. -/
theorem Program.Completes.push (completes : program.Completes below)
    (inside : scope.Inside below) (fills : program.Fills left scope) :
    program.Grows (below.push scope) ∧ (left = [] → program.Completes (below.push scope)) := by
  have nested := completes.nested.push inside
  have known (id : ScopeId) (other : Scope) (found : (below.push scope).scope? id = some other) :
      program.Fills [] other ∨ id = below.size ∧ other = scope := by
    rcases Store.scope?_push_cases found with ⟨-, found⟩ | latest
    · exact .inl (completes.fills id other found)
    · exact .inr latest
  refine ⟨⟨nested, fun id other found => ?_⟩, fun none => ⟨nested, fun id other found => ?_⟩⟩
  · rcases known id other found with whole | ⟨latest, rfl⟩
    · exact ⟨[], whole, fun _ => rfl⟩
    · refine ⟨left, fills, fun inner => ?_⟩
      rw [latest, Store.size_push] at inner
      exact absurd inner (Nat.lt_irrefl _)
  · rcases known id other found with whole | ⟨-, rfl⟩
    · exact whole
    · exact none ▸ fills

/-- Declarations add their variables to the latest scope one after another, up to one that fails. -/
theorem Action.declareAll_records (below : Store) (sink : Sink) (events : List RunEvent)
    (records : frame.Records declared) (declarations : List Decl) :
    ∃ made left scope, declarations = made ++ left ∧
      ((declareAll declarations).final ⟨below.push frame, sink, events⟩).store = below.push scope ∧
      scope.enclosing = frame.enclosing ∧
      scope.Records (declared ++ made.filterMap Decl.var?) ∧
      ∀ after, declareAll declarations ⟨below.push frame, sink, events⟩ = .ok () after →
        left = [] := by
  induction declarations generalizing frame declared events with
  | nil => exact ⟨[], [], frame, rfl, rfl, rfl, by simpa using records, fun _ _ => rfl⟩
  | cons first rest ih =>
    obtain ⟨noted, step⟩ := declare_push below frame sink events first
    split at step
    · refine ⟨[], first :: rest, frame, rfl, ?_, rfl, by simpa using records, ?_⟩
      · rw [declareAll, final_of_error (bind_of_error step)]
      · intro after run
        rw [declareAll, bind_of_error step] at run
        cases run
    · rename_i fresh
      have added := records.add below.size first fresh
      obtain ⟨made, left, scope, split, store, place, later, whole⟩ := ih noted added
      refine ⟨first :: made, left, scope, by rw [split, List.cons_append], ?_, ?_, ?_, ?_⟩
      · rw [declareAll, final_bind step, store]
      · rw [place]
        cases first <;> rfl
      · rwa [List.append_assoc, ← List.filterMap_append] at later
      · intro after run
        rw [declareAll, bind_of_ok step] at run
        exact whole after run

theorem Program.Frames.grows {level : Level} {made rest : List Decl}
    (frames : program.Frames below level frame) (completes : program.Completes below)
    (events : List RunEvent) (front : level.block.declarations = made ++ rest) :
    program.Grows ((declareAll made).final ⟨below.push frame, sink, events⟩).store := by
  obtain ⟨first, left, scope, split, store, place, records, -⟩ :=
    declareAll_records below sink events frames.records made
  have inside : scope.Inside below := by
    rw [Scope.Inside, place]
    exact frames.inside
  have fills : program.Fills (left ++ rest) scope :=
    ⟨level, frames.listed, first, by rw [front, split, List.append_assoc], records⟩
  rw [store]
  exact (completes.push inside fills).1

theorem Program.Frames.completes {level : Level} {after : Machine} {events : List RunEvent}
    (frames : program.Frames below level frame) (completes : program.Completes below)
    (run : declareAll level.block.declarations ⟨below.push frame, sink, events⟩ = .ok () after) :
    program.Completes after.store := by
  obtain ⟨made, left, scope, split, store, place, records, whole⟩ :=
    declareAll_records below sink events frames.records level.block.declarations
  have inside : scope.Inside below := by
    rw [Scope.Inside, place]
    exact frames.inside
  rw [final_of_ok run] at store
  rw [store]
  exact (completes.push inside ⟨level, frames.listed, made, split, records⟩).2 (whole after run)

theorem Program.completes_empty (program : Program) : program.Completes ⟨#[]⟩ :=
  ⟨Store.nested_empty, fun id scope found => by simp [Store.scope?] at found⟩

theorem Program.frames_global (program : Program) :
    program.Frames ⟨#[]⟩ program.level Scope.global where
  listed := List.mem_cons_self
  records := .empty _ _
  inside := .inl ⟨rfl, rfl⟩

/-- A routine that a run enters gets a scope inside the one that declares it, with its parameters and
its result. -/
theorem Reached.frames {depth : Nat} {closure : Closure} {args : List Value}
    (reached : Reached config program fuel sink ⟨depth, .enter closure args, machine⟩)
    (home : (machine.store.scope? closure.home).isSome)
    (framed : closure.routine.heading.frame (machine.store.inner closure.name closure.home) args =
      .ok frame) : program.Frames machine.store closure.routine.level frame := by
  obtain ⟨level, around, placed⟩ := reached.placed
  obtain ⟨out, -, -, arity⟩ := placed.enters closure args rfl
  have empty : (machine.store.inner closure.name closure.home).Records [] := .empty _ _
  obtain ⟨vars, binds, -⟩ := Heading.frame_binds machine.store.size
    (Scope.sound_of_empty closure.name (machine.store.chain closure.home)) framed
  obtain ⟨scope, atHome⟩ := Option.isSome_iff_exists.mp home
  exact ⟨reached.level_mem, empty.frame arity framed,
    .inr ⟨closure.home, Store.lt_size atHome, binds.enclosing⟩⟩

theorem Reached.completes (reached : Reached config program fuel sink point) :
    program.Completes point.machine.store := by
  induction reached with
  | start distinct declared =>
    exact program.frames_global.completes program.completes_empty declared
  | @step point next reached step ih =>
    obtain ⟨level, around, placed⟩ := reached.placed
    rcases step.evolves_or_begins placed.executes.linked with
      evolves | ⟨closure, args, entering, begins⟩
    · exact ih.evolve evolves
    · obtain ⟨fuel, task, machine⟩ := point
      cases entering
      obtain ⟨frame, framed, declared⟩ := begins.declared
      exact (reached.frames begins.home framed).completes ih declared

theorem Visited.grows (visited : Visited config program fuel sink machine) :
    program.Grows machine.store := by
  cases visited with
  | opening distinct front =>
    exact program.frames_global.grows program.completes_empty _ front
  | before reached => exact reached.completes.grows
  | after reached =>
    obtain ⟨level, around, placed⟩ := reached.placed
    exact (reached.completes.evolve placed.final_evolves).grows
  | declaring reached room home framed front =>
    exact (reached.frames home framed).grows reached.completes _ front

theorem Action.updateStore_appends {change : ScopeId → Store → Except Fault Store}
    {after : Machine} (grows : ∀ id store later, change id store = .ok later → store.Appends later)
    (run : updateStore change machine = .ok () after) : machine.store.Appends after.store := by
  rw [updateStore_eq] at run
  split at run
  · rename_i later changed
    cases run
    exact grows _ _ _ changed
  · cases run

theorem Action.declare_appends {decl : Decl} {after : Machine}
    (run : declare decl machine = .ok () after) : machine.store.Appends after.store := by
  cases decl with
  | var name type =>
    rw [declare] at run
    refine updateStore_appends (fun id store later changed => ?_) run
    exact .update changed fun _ _ => .declareVar
  | routine heading declarations body =>
    rw [declare, get_bind, bind_of_ok (note_apply _ _)] at run
    have appends := updateStore_appends (fun id store later changed => ?_) run
    · exact appends
    · exact .update changed fun _ _ => .declareRoutine

/-- Making declarations, with success or not, takes no variable away and changes no places. -/
theorem Action.declareAll_appends (declarations : List Decl) (machine : Machine) :
    machine.store.Appends ((declareAll declarations).final machine).store := by
  induction declarations generalizing machine with
  | nil => exact .refl _
  | cons first rest ih =>
    cases run : declare first machine with
    | ok result middle =>
      rw [declareAll, final_bind run]
      exact (declare_appends run).trans (ih middle)
    | error stop after =>
      rw [declareAll, final_of_error (bind_of_error run), declare_error run]
      exact .refl _

theorem Step.appends (reached : Reached config program fuel sink point)
    (step : Step config point next) : point.machine.store.Appends next.machine.store := by
  obtain ⟨level, around, placed⟩ := reached.placed
  rcases step.evolves_or_begins placed.executes.linked with evolves | ⟨closure, args, -, begins⟩
  · exact .evolve evolves
  · obtain ⟨frame, framed, declared⟩ := begins.declared
    have appends := declareAll_appends closure.routine.block.declarations
      ⟨point.machine.store.push frame, point.machine.sink,
        .enter closure.routine.heading.kind closure.name point.machine.store.size ::
          point.machine.events⟩
    rw [final_of_ok declared] at appends
    exact (Store.Appends.push _ frame).trans appends

/-- Parameters enter the scope of an activation one after another, and what is declared behind them
leaves the tables in step. -/
theorem Scope.bindParams_inStep {enclosing : List ScopeId} {params : List Param} {args : List Value}
    {name : String} (bound : (Scope.mk name [] [] enclosing).bindParams params args = .ok scope) :
    scope.InStep ∧ scope.signature = Param.vars (params.take args.length) ∧
      ∀ name type after, scope.declareVar name type = .ok after →
        after.InStep ∧ after.signature = scope.signature ++ [(name, type)] := by
  have records := (Scope.Records.empty name enclosing).bindParams bound
  refine ⟨records.inStep, records.order, fun name type after taken => ?_⟩
  have later := records.declareVar taken
  exact ⟨later.inStep, by rw [later.order, records.order]⟩

end

/-- The tables of scopes stay in step and their links lead out, whatever is done with scopes one by
one and wherever a run is. The variables of a scope are those that were declared there with success,
in that order: by the operations, or by the block that the scope belongs to as far as its
declarations have been made. What was declared keeps its place. -/
theorem scope_tables_coherent :
    (∀ ops, (ScopeGraph.initial.performAll ops).store.Coherent ∧
      (∀ id scope, (ScopeGraph.initial.performAll ops).store.scope? id = some scope →
        scope.signature = ScopeGraph.initial.declaredIn id ops) ∧
      ∀ more, (ScopeGraph.initial.performAll ops).store.Appends
        (ScopeGraph.initial.performAll (ops ++ more)).store) ∧
    (∀ config program fuel sink,
      (∀ machine, Visited config program fuel sink machine →
        machine.store.Coherent ∧ program.Grows machine.store) ∧
      ∀ point, Reached config program fuel sink point →
        point.machine.store.Appends (point.final config).store ∧
        ∀ next, Step config point next → point.machine.store.Appends next.machine.store) ∧
    (∀ (declarations : List Decl) (machine : Machine),
      machine.store.Appends ((declareAll declarations).final machine).store) ∧
    ∀ name enclosing params args scope,
      (Scope.mk name [] [] enclosing).bindParams params args = .ok scope →
      scope.InStep ∧ scope.signature = Param.vars (params.take args.length) ∧
        ∀ name type after, scope.declareVar name type = .ok after →
          after.InStep ∧ after.signature = scope.signature ++ [(name, type)] := by
  refine ⟨fun ops => ⟨ScopeGraph.performAll_coherent ops, fun id scope found => ?_,
    ScopeGraph.performAll_appends ops⟩, fun config program fuel sink => ⟨?_, ?_⟩,
    declareAll_appends, fun _ _ _ _ _ => Scope.bindParams_inStep⟩
  · exact (ScopeGraph.performAll_records found).order
  · intro machine visited
    exact ⟨visited.grows.coherent, visited.grows⟩
  · intro point reached
    obtain ⟨level, around, placed⟩ := reached.placed
    exact ⟨.evolve placed.final_evolves, fun next step => step.appends reached⟩

/-- A name is declared again, with no success in its own scope and with success in an inner one; and
a program runs in which a caller and its callee stand on the same global scope. -/
theorem scope_tables_coherent_redeclared :
    (∃ scope : Scope, scope.InStep ∧ scope.signature = [("x", .integer), ("y", .real)] ∧
      scope.tables.index "y" = some 1) ∧
    (∃ machine, Visited .default shadowing 2 (.empty none) machine ∧ machine.chain = [2, 0] ∧
      machine.store.Coherent) ∧
    ∃ scope : Scope, scope.InStep ∧ scope.signature = [("n", .real)] := by
  obtain ⟨operations, runs, -, frames⟩ := scope_tables_coherent
  refine ⟨?_, ?_, ?_⟩
  · obtain ⟨coherent, declared, -⟩ := operations
      [(0, .declareVar "x" .integer), (0, .declareVar "x" .real), (0, .child "inner"),
        (1, .declareVar "x" .real), (0, .declareRoutine "x" 0), (0, .declareVar "y" .real)]
    exact ⟨_, coherent.tables 0 _ rfl, (declared 0 _ rfl).trans (by cbv), by cbv⟩
  · obtain ⟨machine, reached, chain, -⟩ := shadowing_reached
    have visited := Visited.before reached
    exact ⟨machine, visited, chain, ((runs _ _ _ _).1 machine visited).1⟩
  · have bound : (Scope.mk "f" [] [] [0]).bindParams [⟨⟨"n", .point 0⟩, .real⟩] [.integer 3] =
        .ok ⟨"f", [⟨"n", .real, some (.real (Float.ofInt 3))⟩], [], [0]⟩ := rfl
    obtain ⟨inStep, signature, -⟩ := frames _ _ _ _ _ bound
    exact ⟨_, inStep, signature⟩

end MiniPascal
