import MiniPascal.Proofs.Run.Equations

namespace MiniPascal

/-- The scopes that code sees: the one in which it executes, then those around it. -/
def Machine.chain (machine : Machine) : List ScopeId := machine.store.chain machine.current

theorem Machine.chain_eq {before after : Machine} {writable : List ScopeId}
    (evolves : before.store.Evolves writable after.store) : after.chain = before.chain := by
  rw [Machine.chain, Machine.chain, Machine.current, Machine.current, evolves.size,
    evolves.chain_eq]

def Machine.Linked (machine : Machine) : Prop := machine.store.Linked machine.chain

theorem Machine.Linked.evolve {before after : Machine} {writable : List ScopeId}
    (linked : before.Linked) (evolves : before.store.Evolves writable after.store) :
    after.Linked := by
  rw [Machine.Linked, Machine.chain_eq evolves]
  exact evolves.linked linked

namespace Action

variable {α β : Type} {enter : Activate} {machine after : Machine} {rounds : Nat}

/-- The machine in which an action ends, with a result or without. -/
def final (action : Action α) (machine : Machine) : Machine :=
  match action machine with
  | .ok _ after | .error _ after => after

theorem final_of_ok {action : Action α} {result : α} (run : action machine = .ok result after) :
    action.final machine = after := by
  rw [final, run]

theorem final_of_error {action : Action α} {stop : RunStop}
    (run : action machine = .error stop after) : action.final machine = after := by
  rw [final, run]

theorem final_bind {first : Action α} {next : α → Action β} {result : α}
    (run : first machine = .ok result after) :
    (first >>= next).final machine = (next result).final after := by
  rw [final, bind_of_ok run, final]

/-- However the action ends, it has written only to scopes that its code sees. -/
def Confined (action : Action α) (machine : Machine) : Prop :=
  machine.store.Evolves machine.chain (action.final machine).store

theorem Confined.of_final {action : Action α}
    (same : (action.final machine).store = machine.store) : Confined action machine := by
  rw [Confined, same]
  exact .refl _ _

theorem Confined.evolves {action : Action α} {result : α} (confined : Confined action machine)
    (run : action machine = .ok result after) :
    machine.store.Evolves machine.chain after.store := by
  rw [Confined, final_of_ok run] at confined
  exact confined

theorem Confined.congr {action other : Action α} (same : action machine = other machine)
    (confined : Confined other machine) : Confined action machine := by
  rw [Confined, final, same]
  exact confined

theorem Confined.bind {first : Action α} {next : α → Action β} (start : Confined first machine)
    (rest : ∀ result after, first machine = .ok result after →
      machine.store.Evolves machine.chain after.store → Confined (next result) after) :
    Confined (first >>= next) machine := by
  cases run : first machine with
  | error stop after =>
    rw [Confined, final_of_error run] at start
    rw [Confined, final_of_error (bind_of_error run)]
    exact start
  | ok result after =>
    have evolves := start.evolves run
    have later := rest result after run evolves
    rw [Confined, Machine.chain_eq evolves] at later
    rw [Confined, final_bind run]
    exact evolves.trans later

theorem Confined.pure (result : α) : Confined (Pure.pure result) machine := .of_final rfl

theorem Confined.fault (cause : Fault) : Confined (fault cause : Action α) machine := .of_final rfl

theorem Confined.ofExcept (outcome : Except Fault α) : Confined (ofExcept outcome) machine := by
  cases outcome with
  | ok result => exact .pure result
  | error cause => exact .fault cause

/-- Activations that write only to scopes that the body of the routine sees. -/
def ActivatesConfined (enter : Activate) : Prop :=
  ∀ (closure : Closure) (args : List Value) (machine : Machine),
    machine.Linked → closure.home ∈ machine.chain →
      machine.store.Evolves (machine.store.chain closure.home)
        ((enter closure args).final machine).store

theorem ActivatesConfined.confined (sound : ActivatesConfined enter) {closure : Closure}
    {args : List Value} (linked : machine.Linked) (visible : closure.home ∈ machine.chain) :
    Confined (enter closure args) machine := by
  have suffix := (Store.Linked.chain_suffix linked visible).1
  exact (sound closure args machine linked visible).mono suffix.subset

theorem callee_ok {name : String} {actual : Nat} {called : Callee}
    (run : callee name actual machine = .ok called after) :
    after = machine ∧ ∀ closure, called = .routine closure →
      machine.store.routine? machine.current name = some closure ∧
        closure.routine.heading.params.length = actual := by
  rw [callee_apply] at run
  split at run
  · rename_i closure found
    split at run
    · rename_i arity
      cases run
      refine ⟨rfl, ?_⟩
      rintro _ ⟨⟩
      exact ⟨found, arity⟩
    · cases run
  · split at run
    · split at run
      · cases run
        exact ⟨rfl, by rintro _ ⟨⟩⟩
      · cases run
    · cases run

theorem callee_confined (name : String) (actual : Nat) : Confined (callee name actual) machine := by
  rw [callee]
  refine Confined.bind (.of_final rfl) fun seen _ _ _ => ?_
  split
  · simp only
    split
    · exact .pure _
    · exact .fault _
  · split
    · split
      · exact .pure _
      · exact .fault _
    · exact .fault _

theorem runBuiltin_confined (builtin : Builtin) (args : List Value) :
    Confined (runBuiltin builtin args) machine := by
  apply Confined.of_final
  obtain ⟨store, sink, events⟩ := machine
  simp only [final, runBuiltin]
  rcases builtin.run args sink with ⟨sink, _ | cause⟩ <;> rfl

theorem result_confined (name : String) (value : Option Value) :
    Confined (result name value) machine := by
  cases value with
  | none => exact .fault _
  | some value => exact .pure value

theorem call_confined (sound : ActivatesConfined enter) {called : Callee} {args : List Value}
    (linked : machine.Linked)
    (visible : ∀ closure, called = .routine closure → closure.home ∈ machine.chain) :
    Confined (call enter called args) machine := by
  cases called with
  | routine closure => exact sound.confined linked (visible closure rfl)
  | builtin builtin => exact (runBuiltin_confined builtin args).bind fun _ _ _ _ => .pure none

theorem assign_confined (linked : machine.Linked) (name : String) (value : Value) :
    Confined (assign name value) machine := by
  have applied := assign_apply name value machine
  cases taken : machine.store.assign machine.current name value with
  | error cause =>
    rw [taken] at applied
    exact .of_final (by rw [final_of_error applied])
  | ok store =>
    rw [taken] at applied
    rw [Confined, final_of_ok applied]
    exact Store.assign_evolves (fun _ member _ => linked.orderly member) taken

theorem calling_confined (name : String) (actual : Nat) (sound : ActivatesConfined enter)
    (linked : machine.Linked) {arguments : Action (List Value)} {next : Option Value → Action α}
    (evaluated : Confined arguments machine) (rest : ∀ value after, Confined (next value) after) :
    Confined (do
      let called ← callee name actual
      let values ← arguments
      next (← call enter called values)) machine := by
  refine (callee_confined name actual).bind fun called same found _ => ?_
  obtain ⟨rfl, means⟩ := callee_ok found
  refine evaluated.bind fun values later _ evolves => ?_
  have visible closure (named : called = .routine closure) : closure.home ∈ later.chain := by
    rw [Machine.chain_eq evolves]
    exact Store.Linked.home_mem linked (means closure named).1
  exact (call_confined sound (linked.evolve evolves) visible).bind fun value after _ _ =>
    rest value after

theorem readName_confined (sound : ActivatesConfined enter) (linked : machine.Linked)
    (name : String) : Confined (readName enter name) machine := by
  have applied := readName_apply enter name machine
  cases found : machine.store.binding? machine.current name with
  | some held =>
    rw [found] at applied
    cases value : held.2.value with
    | some value =>
      simp only [value] at applied
      exact .of_final (by rw [final_of_ok applied])
    | none =>
      simp only [value] at applied
      exact .of_final (by rw [final_of_error applied])
  | none =>
    simp only [found] at applied
    split at applied
    · refine .congr applied ?_
      have called := calling_confined name 0 sound linked (.pure []) fun value _ =>
        result_confined name value
      simpa only [pure_bind] using called
    · exact .of_final (by rw [final_of_error applied])

mutual

theorem eval_confined (sound : ActivatesConfined enter) (expr : Expr) {machine : Machine}
    (linked : machine.Linked) : Confined (eval enter expr) machine := by
  cases expr with
  | number literal span =>
    rw [eval]
    exact .pure _
  | text value span =>
    rw [eval]
    exact .pure _
  | var name span =>
    rw [eval]
    exact readName_confined sound linked name
  | unary op operand span =>
    rw [eval]
    exact (eval_confined sound operand linked).bind fun value _ _ _ => .ofExcept _
  | binary left op right span =>
    rw [eval]
    refine (eval_confined sound left linked).bind fun first _ _ evolves => ?_
    exact (eval_confined sound right (linked.evolve evolves)).bind fun second _ _ _ => .ofExcept _
  | relational left op right span =>
    rw [eval]
    refine (eval_confined sound left linked).bind fun first _ _ evolves => ?_
    exact (eval_confined sound right (linked.evolve evolves)).bind fun second _ _ _ => .ofExcept _
  | call name args span =>
    rw [eval]
    exact calling_confined _ _ sound linked (evalAll_confined sound args linked) fun value _ =>
      result_confined _ value

theorem evalAll_confined (sound : ActivatesConfined enter) (exprs : List Expr) {machine : Machine}
    (linked : machine.Linked) : Confined (evalAll enter exprs) machine := by
  cases exprs with
  | nil =>
    rw [evalAll]
    exact .pure _
  | cons first rest =>
    rw [evalAll]
    refine (eval_confined sound first linked).bind fun value _ _ evolves => ?_
    exact (evalAll_confined sound rest (linked.evolve evolves)).bind fun values _ _ _ => .pure _

end

theorem evalCondition_confined (sound : ActivatesConfined enter) (linked : machine.Linked)
    (cond : Expr) : Confined (evalCondition enter cond) machine := by
  refine (eval_confined sound cond linked).bind fun value _ _ _ => ?_
  split
  · exact .pure _
  · exact .fault _

theorem repeatUntil_confined {round : Action Bool}
    (confined : ∀ machine : Machine, machine.Linked → Confined round machine) (rounds : Nat)
    {machine : Machine} (linked : machine.Linked) :
    Confined (repeatUntil round rounds) machine := by
  induction rounds generalizing machine with
  | zero => exact .of_final rfl
  | succ rounds ih =>
    refine (confined machine linked).bind fun last after _ evolves => ?_
    split
    · exact .pure _
    · exact ih (linked.evolve evolves)

mutual

theorem exec_confined (sound : ActivatesConfined enter) (rounds : Nat) (stmt : Stmt)
    {machine : Machine} (linked : machine.Linked) : Confined (exec enter rounds stmt) machine := by
  cases stmt with
  | compound body span =>
    rw [exec]
    exact execAll_confined sound rounds body linked
  | assign target value span =>
    rw [exec]
    exact (eval_confined sound value linked).bind fun value _ _ evolves =>
      assign_confined (linked.evolve evolves) target.name value
  | call name args span =>
    rw [exec]
    exact calling_confined _ _ sound linked (evalAll_confined sound args linked) fun _ _ => .pure _
  | ifThen cond branch span =>
    rw [exec]
    refine (evalCondition_confined sound linked cond).bind fun truth _ _ evolves => ?_
    split
    · exact exec_confined sound rounds branch (linked.evolve evolves)
    · exact .pure _
  | ifElse cond branch otherwise span =>
    rw [exec]
    refine (evalCondition_confined sound linked cond).bind fun truth _ _ evolves => ?_
    split
    · exact exec_confined sound rounds branch (linked.evolve evolves)
    · exact exec_confined sound rounds otherwise (linked.evolve evolves)
  | repeatUntil body cond span =>
    rw [exec]
    refine repeatUntil_confined (fun machine linked => ?_) rounds linked
    exact (execAll_confined sound rounds body linked).bind fun _ _ _ evolves =>
      evalCondition_confined sound (linked.evolve evolves) cond
  | empty span =>
    rw [exec]
    exact .pure _

theorem execAll_confined (sound : ActivatesConfined enter) (rounds : Nat) (body : List Stmt)
    {machine : Machine} (linked : machine.Linked) :
    Confined (execAll enter rounds body) machine := by
  cases body with
  | nil =>
    rw [execAll]
    exact .pure _
  | cons first rest =>
    rw [execAll]
    exact (exec_confined sound rounds first linked).bind fun _ _ _ evolves =>
      execAll_confined sound rounds rest (linked.evolve evolves)

end

/-- A block that executes in a new scope writes, among the others, only to those around it. -/
theorem execBlock_confined (sound : ActivatesConfined enter) (rounds : Nat) (block : Block)
    {below : Store} {frame : Scope} (framed : frame.Sound below.size)
    (around : below.Linked frame.enclosing) (sink : Sink) (events : List RunEvent) :
    below.Evolves frame.enclosing
      ((execBlock enter rounds block).final ⟨below.push frame, sink, events⟩).store.pop := by
  have declared := declareAll_push below frame sink events block.declarations
  cases made : declareAll block.declarations ⟨below.push frame, sink, events⟩ with
  | error stop after =>
    rw [made] at declared
    cases declared with
    | taken done stopped taken sound =>
      rw [execBlock, final_of_error (bind_of_error made), Store.pop_push]
      exact .refl _ _
  | ok result after =>
    rw [made] at declared
    cases declared with
    | all declaredSound =>
      rename_i noted
      let scope := frame.addAll below.size block.declarations
      have inside : scope.enclosing = frame.enclosing := Scope.enclosing_addAll _
      have chain : (Machine.mk (below.push scope) sink noted).chain =
          below.size :: scope.enclosing := by
        rw [Machine.chain, Machine.current_push, Store.chain_of_some Store.scope?_push_size]
      have linked : (Machine.mk (below.push scope) sink noted).Linked := by
        rw [Machine.Linked, chain]
        exact .cons Store.scope?_push_size (declaredSound framed) (inside ▸ around.push)
      have confined := execAll_confined sound rounds block.body linked
      rw [Confined, chain, inside] at confined
      rw [execBlock, final_bind made]
      exact confined.pop

theorem final_activation (enter : Activate) (rounds : Nat) (routine : Routine) (machine : Machine) :
    (activation enter rounds routine).final machine =
      (execBlock enter rounds routine.block).final { machine with
        events := .enter routine.heading.kind routine.heading.name.name machine.callDepth ::
          machine.events } := by
  rw [final, activation_apply, final]
  cases execBlock enter rounds routine.block _ with
  | ok result after => rfl
  | error stop after => rfl

/-- Activations write only to scopes that the body of the routine sees, whoever the caller is. -/
theorem activate_confined (config : Config) (fuel : Nat) :
    ActivatesConfined (activate config fuel) := by
  induction fuel with
  | zero => exact fun closure args machine _ _ => .refl _ _
  | succ fuel ih =>
    intro closure args machine linked visible
    have applied := activate_succ config fuel closure args machine
    split at applied
    · rw [final_of_error applied]
      exact .refl _ _
    obtain ⟨home, atHome, -⟩ := linked.scope_of_mem visible
    rw [atHome] at applied
    cases framed : closure.routine.heading.frame
        (machine.store.inner closure.name closure.home) args with
    | error cause =>
      simp only [framed] at applied
      rw [final_of_error applied]
      exact .refl _ _
    | ok frame =>
      obtain ⟨vars, binds, -⟩ := Heading.frame_binds machine.store.size
        (Scope.sound_of_empty closure.name (machine.store.chain closure.home)) framed
      have around : machine.store.Linked frame.enclosing := by
        rw [binds.enclosing]
        exact (linked.chain_suffix visible).2
      have body := execBlock_confined ih fuel closure.routine.block binds.sound around
      rw [binds.enclosing] at body
      cases run : activation (activate config fuel) fuel closure.routine
          { machine with store := machine.store.push frame } with
      | ok value after =>
        simp only [framed, run] at applied
        rw [final_of_ok applied, ← final_of_ok run, final_activation]
        exact body _ _
      | error stop after =>
        simp only [framed, run] at applied
        rw [final_of_error applied, ← final_of_error run, final_activation]
        exact body _ _

end Action

end MiniPascal
