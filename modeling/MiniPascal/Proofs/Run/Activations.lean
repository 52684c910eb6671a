import MiniPascal.Proofs.Run.Reached
import MiniPascal.Proofs.Static.Levels

namespace MiniPascal

/-- A scope as every activation of a block has it. -/
structure Scope.Activates (id : ScopeId) (scope : Scope) (level : Level) : Prop where
  name : scope.name = level.name
  outermost : level.heading = none ↔ id = 0
  vars : scope.signature = level.vars
  routines : scope.routines = level.routines.map (Closure.mk · id)

def Store.Activation (store : Store) (id : ScopeId) (level : Level) : Prop :=
  ∃ scope, store.scope? id = some scope ∧ scope.Activates id level

theorem Store.Activation.evolve {before after : Store} {writable : List ScopeId} {id : ScopeId}
    {level : Level} (activation : before.Activation id level)
    (evolves : before.Evolves writable after) : after.Activation id level := by
  obtain ⟨scope, found, activates⟩ := activation
  obtain ⟨later, atLater, step, -⟩ := evolves.scope id scope found
  refine ⟨later, atLater, step.name.trans activates.name, activates.outermost,
    step.signature.trans activates.vars, ?_⟩
  rw [step.routines, activates.routines]

theorem Store.Activation.push {store : Store} {added : Scope} {id : ScopeId} {level : Level}
    (activation : store.Activation id level) : (store.push added).Activation id level := by
  obtain ⟨scope, found, activates⟩ := activation
  exact ⟨scope, Store.scope?_push_of_some found, activates⟩

/-- A machine whose code sees one activation of each of some nested blocks, the innermost first. -/
structure Machine.Executes (machine : Machine) (levels : List Level) : Prop where
  linked : machine.Linked
  activations : List.Forall₂ machine.store.Activation machine.chain levels

theorem Machine.Executes.evolve {before after : Machine} {levels : List Level}
    {writable : List ScopeId} (executes : before.Executes levels)
    (evolves : before.store.Evolves writable after.store) : after.Executes levels := by
  refine ⟨executes.linked.evolve evolves, ?_⟩
  rw [Machine.chain_eq evolves]
  exact executes.activations.imp fun _ _ activation => activation.evolve evolves

section

variable {config : Config} {fuel rounds : Nat} {machine after : Machine} {levels : List Level}

theorem Machine.Executes.evolves_of_eval {expr : Expr} {value : Value}
    (executes : machine.Executes levels)
    (run : Action.eval (Action.activate config fuel) expr machine = .ok value after) :
    machine.store.Evolves machine.chain after.store := by
  have confined := Action.eval_confined (Action.activate_confined config fuel) expr executes.linked
  exact confined.evolves run

theorem Machine.Executes.after_eval {expr : Expr} {value : Value} (executes : machine.Executes levels)
    (run : Action.eval (Action.activate config fuel) expr machine = .ok value after) :
    after.Executes levels := executes.evolve (executes.evolves_of_eval run)

theorem Machine.Executes.after_condition {cond : Expr} {truth : Bool}
    (executes : machine.Executes levels)
    (run : Action.evalCondition (Action.activate config fuel) cond machine = .ok truth after) :
    after.Executes levels := by
  have sound := Action.activate_confined config fuel
  have confined := Action.evalCondition_confined sound executes.linked cond
  exact executes.evolve (confined.evolves run)

theorem Machine.Executes.after_exec {stmt : Stmt} (executes : machine.Executes levels)
    (run : Action.exec (Action.activate config fuel) rounds stmt machine = .ok () after) :
    after.Executes levels := by
  have sound := Action.activate_confined config fuel
  have confined := Action.exec_confined sound rounds stmt executes.linked
  exact executes.evolve (confined.evolves run)

theorem Machine.Executes.after_execAll {body : List Stmt} (executes : machine.Executes levels)
    (run : Action.execAll (Action.activate config fuel) rounds body machine = .ok () after) :
    after.Executes levels := by
  have sound := Action.activate_confined config fuel
  have confined := Action.execAll_confined sound rounds body executes.linked
  exact executes.evolve (confined.evolves run)

end

theorem Scope.Activates.binding? {id : ScopeId} {scope : Scope} {level : Level}
    (activates : scope.Activates id level) (name : String) :
    (scope.binding? name).map Binding.type = level.var? name := by
  rw [Level.var?, ← activates.vars, Scope.signature, List.find?_map, Option.map_map]
  rfl

theorem Scope.Activates.routine? {id : ScopeId} {scope : Scope} {level : Level}
    (activates : scope.Activates id level) (name : String) :
    scope.routine? name = (level.routine? name).map (Closure.mk · id) := by
  rw [Scope.routine?, activates.routines, List.find?_map]
  rfl

/-- Searching a chain of scopes finds what the blocks of the scopes say, in the same place. -/
theorem findSome?_resolve {α β : Type} {related : ScopeId → Level → Prop} {chain : List ScopeId}
    {levels : List Level} {search : ScopeId → Option β} {known : Level → Option α}
    (agrees : ∀ id level, related id level → (search id).isSome = (known level).isSome)
    (matched : List.Forall₂ related chain levels) :
    chain.findSome? search = (resolve known levels).bind fun (out, _) => chain[out]?.bind search := by
  induction matched with
  | nil => rfl
  | @cons id level chain levels here around ih =>
    have same := agrees id level here
    rw [List.findSome?_cons, resolve]
    cases knows : known level with
    | some found =>
      rw [knows, Option.isSome_some] at same
      obtain ⟨own, held⟩ := Option.isSome_iff_exists.mp same
      simp [held]
    | none =>
      rw [knows, Option.isSome_none] at same
      have missing : search id = none := by simpa using same
      rw [missing, ih]
      cases resolve known levels with
      | none => rfl
      | some found => rfl

theorem Machine.Executes.resolved {α : Type} {machine : Machine} {levels : List Level}
    {known : Level → Option α} {out : Nat} {found : α} (executes : machine.Executes levels)
    (resolves : resolve known levels = some (out, found)) :
    ∃ id level, machine.chain[out]? = some id ∧ levels[out]? = some level ∧
      machine.store.Activation id level ∧ known level = some found := by
  obtain ⟨level, atLevel, knows⟩ := resolve_some resolves
  obtain ⟨inside, rfl⟩ := List.getElem?_eq_some_iff.mp atLevel
  have lengths := executes.activations.length_eq
  have outer : out < machine.chain.length := by omega
  exact ⟨machine.chain[out], levels[out], List.getElem?_eq_getElem outer, atLevel,
    executes.activations.get outer inside, knows⟩

/-- The variable of a name that a scope some levels out holds, with that scope. -/
def Machine.bindingAt? (machine : Machine) (out : Nat) (name : String) : Option (ScopeId × Binding) :=
  machine.chain[out]?.bind fun owner =>
    ((machine.store.scope? owner).bind (·.binding? name)).map (owner, ·)

theorem Machine.Executes.binding? {machine : Machine} {levels : List Level}
    (executes : machine.Executes levels) (name : String) :
    machine.store.binding? machine.current name =
      (resolveVar levels name).bind fun (out, _) => machine.bindingAt? out name := by
  refine findSome?_resolve ?_ executes.activations
  rintro id level ⟨scope, found, activates⟩
  rw [found, ← activates.binding? name]
  simp

theorem Machine.Executes.bindingAt? {machine : Machine} {levels : List Level} {name : String}
    {out : Nat} {type : VarType} (executes : machine.Executes levels)
    (resolves : resolveVar levels name = some (out, type)) :
    ∃ owner scope binding, machine.chain[out]? = some owner ∧
      machine.store.scope? owner = some scope ∧ scope.binding? name = some binding ∧
      binding.type = type ∧ machine.bindingAt? out name = some (owner, binding) := by
  obtain ⟨owner, level, atOwner, -, ⟨scope, found, activates⟩, known⟩ := executes.resolved resolves
  rw [← activates.binding? name] at known
  obtain ⟨binding, listed, typed⟩ := Option.map_eq_some_iff.mp known
  refine ⟨owner, scope, binding, atOwner, found, listed, typed, ?_⟩
  simp [Machine.bindingAt?, atOwner, found, listed]

theorem Machine.Executes.routine? {machine : Machine} {levels : List Level}
    (executes : machine.Executes levels) (name : String) :
    machine.store.routine? machine.current name =
      (resolveRoutine levels name).bind fun (out, routine) =>
        machine.chain[out]?.map (Closure.mk routine) := by
  have searched : machine.store.routine? machine.current name =
      (resolveRoutine levels name).bind fun (out, _) => machine.chain[out]?.bind fun owner =>
        (machine.store.scope? owner).bind (·.routine? name) := by
    refine findSome?_resolve ?_ executes.activations
    rintro id level ⟨scope, found, activates⟩
    rw [found, Option.bind_some, activates.routine? name, Option.isSome_map]
  rw [searched]
  cases resolves : resolveRoutine levels name with
  | none => rfl
  | some found =>
    obtain ⟨owner, level, atOwner, -, ⟨scope, atScope, activates⟩, known⟩ :=
      executes.resolved resolves
    simp [atOwner, atScope, activates.routine? name, known]

/-- Replaces the value of the variable of a name that a scope some levels out holds. -/
def Machine.write (machine : Machine) (out : Nat) (name : String) (stored : Value) : Machine :=
  match machine.chain[out]? with
  | none => machine
  | some owner =>
    { machine with store := ⟨machine.store.scopes.modify owner (·.setValue name stored)⟩ }

/-- What reading a name must do in code of the innermost of some nested blocks: read the variable that
the innermost block declares which declares one, or else call a routine. -/
def Machine.readLexically (machine : Machine) (levels : List Level) (enter : Activate)
    (name : String) : EStateM.Result RunStop Machine Value :=
  match resolveVar levels name with
  | some (out, _) =>
    match (machine.bindingAt? out name).bind (·.2.value) with
    | some value => .ok value machine
    | none => .error (.fault (.uninitializedVariable name)) machine
  | none =>
    if (resolveRoutine levels name).isSome then
      (do Action.result name (← Action.call enter (← Action.callee name 0) [])) machine
    else .error (.fault (.undeclaredVariable name)) machine

def Machine.assignLexically (machine : Machine) (levels : List Level) (name : String)
    (value : Value) : EStateM.Result RunStop Machine Unit :=
  match resolveVar levels name with
  | some (out, type) =>
    match value.coerce? type with
    | some stored => .ok () (machine.write out name stored)
    | none => .error (.fault (.typeMismatch (.assignment name value.kind type))) machine
  | none => .error (.fault (.undeclaredVariable name)) machine

theorem Machine.Executes.read {machine : Machine} {levels : List Level}
    (executes : machine.Executes levels) (enter : Activate) (name : String) :
    Action.readName enter name machine = machine.readLexically levels enter name := by
  rw [Action.readName_apply, executes.binding? name, Machine.readLexically]
  cases resolves : resolveVar levels name with
  | some found =>
    obtain ⟨owner, scope, binding, -, -, -, -, held⟩ := executes.bindingAt? resolves
    cases value : binding.value with
    | none => simp only [Option.bind_some, held, value]
    | some value => simp only [Option.bind_some, held, value]
  | none =>
    have visible : (machine.store.routine? machine.current name).isSome =
        (resolveRoutine levels name).isSome := by
      rw [executes.routine? name]
      cases routine : resolveRoutine levels name with
      | none => rfl
      | some found =>
        obtain ⟨owner, level, atOwner, -⟩ := executes.resolved routine
        simp [atOwner]
    simp only [Option.bind_none, visible]

theorem Machine.Executes.assign {machine : Machine} {levels : List Level}
    (executes : machine.Executes levels) (name : String) (value : Value) :
    Action.assign name value machine = machine.assignLexically levels name value := by
  rw [Action.assign_apply, Store.assign, executes.binding? name, Machine.assignLexically]
  cases resolves : resolveVar levels name with
  | none => rfl
  | some found =>
    obtain ⟨owner, scope, binding, atOwner, -, listed, typed, held⟩ := executes.bindingAt? resolves
    obtain ⟨-, named⟩ := Scope.mem_of_binding? listed
    simp only [Option.bind_some, held, Binding.accept, typed, named, Machine.write, atOwner]
    cases value.coerce? found.2 with
    | none => rfl
    | some stored => rfl

/-- Names mean in a machine what they mean in the text: the variable or the routine that the innermost
block around the code declares, in the activation of that block. -/
structure Machine.ResolvesLexically (machine : Machine) (levels : List Level) : Prop where
  held : ∀ name out type, resolveVar levels name = some (out, type) → ∃ owner binding,
    machine.chain[out]? = some owner ∧ machine.bindingAt? out name = some (owner, binding) ∧
      binding.name = name ∧ binding.type = type
  read : ∀ enter name,
    Action.readName enter name machine = machine.readLexically levels enter name
  assign : ∀ name value,
    Action.assign name value machine = machine.assignLexically levels name value
  routine : ∀ name, machine.store.routine? machine.current name =
    (resolveRoutine levels name).bind fun (out, routine) =>
      machine.chain[out]?.map (Closure.mk routine)

theorem Machine.Executes.resolvesLexically {machine : Machine} {levels : List Level}
    (executes : machine.Executes levels) : machine.ResolvesLexically levels := by
  refine ⟨?_, executes.read, executes.assign, executes.routine?⟩
  intro name out type resolves
  obtain ⟨owner, scope, binding, atOwner, -, listed, typed, held⟩ := executes.bindingAt? resolves
  exact ⟨owner, binding, atOwner, held, (Scope.mem_of_binding? listed).2, typed⟩

/-- A statement that assigns does so where its right side has left the machine, and its target means
there what the text says. -/
theorem Machine.Executes.exec_assign {config : Config} {fuel rounds : Nat}
    {machine after : Machine} {levels : List Level} {target : Ident} {expr : Expr} {span : Span}
    {value : Value} (executes : machine.Executes levels)
    (run : Action.eval (Action.activate config fuel) expr machine = .ok value after) :
    Action.exec (Action.activate config fuel) rounds (.assign target expr span) machine =
      after.assignLexically levels target.name value := by
  rw [Action.exec, bind_of_ok run]
  exact (executes.after_eval run).assign target.name value

/-- A scope in which an activation of a block can begin with its declarations. -/
structure Scope.Opens (id : ScopeId) (scope : Scope) (level : Level) : Prop where
  name : scope.name = level.name
  outermost : level.heading = none ↔ id = 0
  bound : scope.signature = level.bound
  routines : scope.routines = []
  sound : scope.Sound id

theorem Scope.global_opens (program : Program) :
    Scope.global.Opens (Store.mk #[]).size program.level where
  name := rfl
  outermost := by simp [Program.level, Store.size]
  bound := rfl
  routines := rfl
  sound := Scope.sound_of_empty _ _

/-- Once its declarations are made, the code of a block sees one activation more. -/
theorem Machine.executes_of_declared {below : Store} {frame : Scope} {sink : Sink}
    {events : List RunEvent} {level : Level} {around : List Level} {after : Machine}
    (opens : frame.Opens below.size level) (linked : below.Linked frame.enclosing)
    (activations : List.Forall₂ below.Activation frame.enclosing around)
    (declared : Action.declareAll level.block.declarations ⟨below.push frame, sink, events⟩ =
      .ok () after) :
    after.chain = below.size :: frame.enclosing ∧ after.Executes (level :: around) := by
  have made := Action.declareAll_push below frame sink events level.block.declarations
  rw [declared] at made
  cases made with
  | all sound =>
    rename_i noted
    let scope := frame.addAll below.size level.block.declarations
    have latest : (below.push scope).scope? below.size = some scope := Store.scope?_push_size
    have inside : scope.enclosing = frame.enclosing := Scope.enclosing_addAll _
    have chain : (Machine.mk (below.push scope) sink noted).chain =
        below.size :: scope.enclosing := by
      rw [Machine.chain, Machine.current_push, Store.chain_of_some latest]
    have activates : scope.Activates below.size level := by
      refine ⟨(Scope.name_addAll _).trans opens.name, opens.outermost, ?_, ?_⟩
      · rw [Scope.signature_addAll, opens.bound, Level.vars]
      · rw [Scope.routines_addAll, opens.routines, List.nil_append, Level.routines]
    refine ⟨chain.trans (congrArg _ inside), ?_, ?_⟩
    · rw [Machine.Linked, chain]
      exact .cons latest (sound opens.sound) (inside ▸ linked.push)
    · rw [chain, inside]
      exact .cons ⟨scope, latest, activates⟩ (activations.imp fun _ _ activation => activation.push)

/-- The scope of a new activation is directly inside the activation that declares the routine. -/
theorem Machine.Executes.opens {machine : Machine} {levels : List Level} {out : Nat}
    {closure : Closure} {args : List Value} {frame : Scope} (executes : machine.Executes levels)
    (atHome : machine.chain[out]? = some closure.home)
    (arity : closure.routine.heading.params.length = args.length)
    (framed : closure.routine.heading.frame (machine.store.inner closure.name closure.home) args =
      .ok frame) :
    frame.enclosing = machine.chain.drop out ∧
      frame.Opens machine.store.size closure.routine.level ∧
      machine.store.Linked frame.enclosing ∧
      List.Forall₂ machine.store.Activation frame.enclosing (levels.drop out) := by
  obtain ⟨vars, binds, bound⟩ := Heading.frame_binds machine.store.size
    (Scope.sound_of_empty closure.name (machine.store.chain closure.home)) framed
  have member := List.mem_of_getElem? atHome
  have inside : frame.enclosing = machine.chain.drop out :=
    binds.enclosing.trans (executes.linked.chain_eq_drop atHome)
  refine ⟨inside, ⟨binds.name, ?_, ?_, binds.routines, binds.sound⟩, ?_, ?_⟩
  · obtain ⟨home, atScope, -⟩ := executes.linked.scope_of_mem member
    have below := Store.lt_size atScope
    have positive : machine.store.size ≠ 0 := Nat.ne_of_gt (Nat.lt_of_le_of_lt (Nat.zero_le _) below)
    simp [Routine.level, positive]
  · rw [binds.signature, bound arity]
    rfl
  · rw [binds.enclosing]
    exact (executes.linked.chain_suffix member).2
  · rw [inside]
    exact List.forall₂_drop out executes.activations

theorem Begins.executes {config : Config} {closure : Closure} {args : List Value}
    {before after : Machine} {levels : List Level} {out : Nat} (executes : before.Executes levels)
    (atHome : before.chain[out]? = some closure.home)
    (arity : closure.routine.heading.params.length = args.length)
    (begins : Begins config closure args before after) :
    after.chain = before.store.size :: before.chain.drop out ∧
      after.Executes (closure.routine.level :: levels.drop out) := by
  obtain ⟨frame, framed, declared⟩ := begins.declared
  obtain ⟨inside, opens, around, activations⟩ := executes.opens atHome arity framed
  rw [← inside]
  exact Machine.executes_of_declared opens around activations declared

/-- The scope in which code executes is the activation of its block. -/
theorem Machine.Executes.current_activates {machine : Machine} {level : Level} {around : List Level}
    (executes : machine.Executes (level :: around)) :
    ∃ scope, machine.store.scope? machine.current = some scope ∧
      scope.Activates machine.current level ∧ scope.Sound machine.current := by
  obtain ⟨id, rest, ⟨scope, atId, activates⟩, -, chain⟩ :=
    List.forall₂_cons_right_iff.mp executes.activations
  have searched := chain
  rw [Machine.chain, Store.chain] at searched
  split at searched
  · rename_i own found
    obtain ⟨rfl, -⟩ := List.cons.inj searched
    obtain ⟨scope', atScope', sound⟩ :=
      executes.linked.scope_of_mem (chain ▸ List.mem_cons_self)
    obtain rfl : scope = scope' := Option.some.inj (atId.symm.trans atScope')
    exact ⟨scope, atId, activates, sound⟩
  · cases searched

end MiniPascal
