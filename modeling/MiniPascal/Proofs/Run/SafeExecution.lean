import MiniPascal.Proofs.Run.Safe

namespace MiniPascal

namespace Action

variable {α : Type} {config : Config} {program : Program} {fuel : Nat} {levels : List Level}
  {machine : Machine}

/-- Activations of the routines that code of some block sees are safe on arguments of fitting kinds,
and a function gives a value of its type. -/
def ActivatesSafe (config : Config) (fuel : Nat) (program : Program) : Prop :=
  ∀ (levels : List Level) (out : Nat) (closure : Closure) (args : List Value) (machine : Machine),
    program.Nests levels → machine.Executes levels →
    resolveRoutine levels closure.name = some (out, closure.routine) →
    machine.chain[out]? = some closure.home →
    Param.take closure.routine.heading.params (args.map Value.kind) = true →
    Safe (activate config fuel closure args)
      (fun value => value.map Value.kind = closure.routine.heading.result.map VarType.kind) machine

theorem calling_safe {name : String} {actual out : Nat} {routine : Routine} {kinds : List ValueKind}
    {arguments : Action (List Value)} {next : Option Value → Action α} {good : α → Prop}
    (activates : ActivatesSafe config fuel program) (nests : program.Nests levels)
    (executes : machine.Executes levels)
    (resolves : resolveRoutine levels name = some (out, routine))
    (takes : Param.take routine.heading.params kinds = true) (arity : actual = kinds.length)
    (confined : Confined arguments machine)
    (evaluated : Safe arguments (fun values => values.map Value.kind = kinds) machine)
    (rest : ∀ value after, value.map Value.kind = routine.heading.result.map VarType.kind →
      Safe (next value) good after) :
    Safe (do
      let called ← callee name actual
      let values ← arguments
      next (← call (activate config fuel) called values)) good machine := by
  obtain ⟨home, level, atHome, -⟩ := executes.resolved resolves
  have named : (Closure.mk routine home).name = name := resolveRoutine_name resolves
  have means : machine.store.routine? machine.current name = some ⟨routine, home⟩ := by
    simp [executes.routine? name, resolves, atHome]
  have found : callee name actual machine = .ok (.routine ⟨routine, home⟩) machine := by
    rw [callee_apply, means]
    exact if_pos ((Param.length_of_take takes).trans arity.symm)
  rw [Safe, bind_of_ok found]
  refine evaluated.bind fun values later run fitting => ?_
  have evolves := confined.evolves run
  refine Safe.bind (activates levels out ⟨routine, home⟩ values later nests
    (executes.evolve evolves) (named ▸ resolves) ?_ ?_) fun value after _ fine => rest value after fine
  · rw [Machine.chain_eq evolves]
    exact atHome
  · rw [fitting]
    exact takes

theorem result_safe (name : String) {value : Option Value} {result : Option VarType}
    {kind : ValueKind} (fits : value.map Value.kind = result.map VarType.kind)
    (typed : result.map VarType.kind = some kind) :
    Safe (Action.result name value) (·.kind = kind) machine := by
  rw [typed] at fits
  obtain ⟨given, rfl, kinded⟩ := Option.map_eq_some_iff.mp fits
  exact kinded

theorem readName_safe {name : String} {span : Span} {kind : ValueKind}
    (activates : ActivatesSafe config fuel program) (nests : program.Nests levels)
    (executes : machine.Executes levels) (typed : (Expr.var name span).kind? levels = some kind) :
    Safe (readName (activate config fuel) name) (·.kind = kind) machine := by
  have applied := executes.read (activate config fuel) name
  rw [Machine.readLexically] at applied
  rw [Expr.kind?] at typed
  cases resolves : resolveVar levels name with
  | some found =>
    obtain ⟨out, type⟩ := found
    rw [resolves] at typed
    cases typed
    obtain ⟨owner, scope, binding, atOwner, atScope, listed, rfl, held⟩ := executes.bindingAt? resolves
    rw [resolves] at applied
    simp only [held, Option.bind_some] at applied
    cases value : binding.value with
    | none =>
      rw [value] at applied
      exact .of_fault applied rfl
    | some stored =>
      rw [value] at applied
      obtain ⟨scope', atScope', sound⟩ :=
        executes.linked.scope_of_mem (List.mem_of_getElem? atOwner)
      obtain rfl : scope = scope' := Option.some.inj (atScope.symm.trans atScope')
      exact .of_ok applied (sound.typed binding (Scope.mem_of_binding? listed).1 stored value)
  | none =>
    rw [resolves] at typed applied
    obtain ⟨⟨out, routine⟩, found, typed⟩ := Option.bind_eq_some_iff.mp typed
    rw [Heading.kind?] at typed
    split at typed
    · rename_i takes
      simp only [found, Option.isSome_some, if_true] at applied
      have called := calling_safe activates nests executes found takes rfl (.pure [])
        (Safe.of_ok rfl rfl) fun value _ fits => result_safe name fits typed
      simp only [pure_bind] at called
      rw [Safe, applied]
      exact called
    · cases typed

mutual

theorem eval_safe (activates : ActivatesSafe config fuel program) (nests : program.Nests levels)
    (expr : Expr) {machine : Machine} {kind : ValueKind} (executes : machine.Executes levels)
    (typed : expr.kind? levels = some kind) :
    Safe (eval (activate config fuel) expr) (·.kind = kind) machine := by
  have sound := activate_confined config fuel
  cases expr with
  | number literal span =>
    rw [Expr.kind?] at typed
    rw [eval]
    exact .of_ok rfl (Option.some.inj typed)
  | text value span =>
    rw [Expr.kind?] at typed
    rw [eval]
    exact .of_ok rfl (Option.some.inj typed)
  | var name span =>
    rw [eval]
    exact readName_safe activates nests executes typed
  | unary op operand span =>
    rw [Expr.kind?] at typed
    obtain ⟨inner, operandTyped, typed⟩ := Option.bind_eq_some_iff.mp typed
    rw [eval]
    refine (eval_safe activates nests operand executes operandTyped).bind fun value _ _ kinded => ?_
    exact .ofExcept (op.apply_safe (kinded ▸ typed))
  | binary left op right span =>
    rw [Expr.kind?] at typed
    obtain ⟨first, leftTyped, typed⟩ := Option.bind_eq_some_iff.mp typed
    obtain ⟨second, rightTyped, typed⟩ := Option.bind_eq_some_iff.mp typed
    rw [eval]
    refine (eval_safe activates nests left executes leftTyped).bind fun value after run kinded => ?_
    have later := executes.after_eval run
    refine (eval_safe activates nests right later rightTyped).bind fun other _ _ kinded' => ?_
    exact .ofExcept (op.apply_safe (kinded ▸ kinded' ▸ typed))
  | relational left op right span =>
    rw [Expr.kind?] at typed
    obtain ⟨first, leftTyped, typed⟩ := Option.bind_eq_some_iff.mp typed
    obtain ⟨second, rightTyped, typed⟩ := Option.bind_eq_some_iff.mp typed
    rw [eval]
    refine (eval_safe activates nests left executes leftTyped).bind fun value after run kinded => ?_
    have later := executes.after_eval run
    refine (eval_safe activates nests right later rightTyped).bind fun other _ _ kinded' => ?_
    exact .ofExcept (op.apply_safe (kinded ▸ kinded' ▸ typed))
  | call name args span =>
    rw [Expr.kind?] at typed
    obtain ⟨kinds, argsTyped, typed⟩ := Option.bind_eq_some_iff.mp typed
    obtain ⟨⟨out, routine⟩, found, typed⟩ := Option.bind_eq_some_iff.mp typed
    rw [Heading.kind?] at typed
    split at typed
    · rename_i takes
      rw [eval]
      exact calling_safe activates nests executes found takes (Expr.length_of_kinds? argsTyped)
        (evalAll_confined sound args executes.linked)
        (evalAll_safe activates nests args executes argsTyped)
        fun value _ fits => result_safe name.name fits typed
    · cases typed

theorem evalAll_safe (activates : ActivatesSafe config fuel program) (nests : program.Nests levels)
    (exprs : List Expr) {machine : Machine} {kinds : List ValueKind}
    (executes : machine.Executes levels) (typed : Expr.kinds? levels exprs = some kinds) :
    Safe (evalAll (activate config fuel) exprs) (fun values => values.map Value.kind = kinds)
      machine := by
  cases exprs with
  | nil =>
    rw [Expr.kinds?] at typed
    rw [evalAll]
    exact .of_ok rfl (Option.some.inj typed)
  | cons first rest =>
    rw [Expr.kinds?] at typed
    obtain ⟨kind, firstTyped, typed⟩ := Option.bind_eq_some_iff.mp typed
    obtain ⟨others, restTyped, typed⟩ := Option.bind_eq_some_iff.mp typed
    rw [evalAll]
    refine (eval_safe activates nests first executes firstTyped).bind fun value _ run kinded => ?_
    have later := executes.after_eval run
    refine (evalAll_safe activates nests rest later restTyped).bind fun values _ _ kinded' => ?_
    refine .of_ok rfl ?_
    rw [List.map_cons, kinded, kinded']
    exact Option.some.inj typed

end

theorem evalCondition_safe (activates : ActivatesSafe config fuel program)
    (nests : program.Nests levels) {cond : Expr} (executes : machine.Executes levels)
    (typed : cond.kind? levels = some .boolean) :
    Safe (evalCondition (activate config fuel) cond) (fun _ => True) machine := by
  refine (eval_safe activates nests cond executes typed).bind fun value _ _ kinded => ?_
  cases value with
  | boolean truth => exact .of_ok rfl trivial
  | integer value | real value | text value => cases kinded

theorem runBuiltin_safe (builtin : Builtin) (args : List Value) :
    Safe (runBuiltin builtin args) (fun _ => True) machine := by
  obtain ⟨store, sink, events⟩ := machine
  rw [Safe, runBuiltin, Builtin.run]
  rcases sink.writeAll (builtin.output args) with ⟨sink, _ | _⟩
  · exact rfl
  · exact trivial

theorem assign_safe {name : String} {value : Value} {out : Nat} {type : VarType}
    (executes : machine.Executes levels) (resolves : resolveVar levels name = some (out, type))
    (takes : type.takes value.kind = true) :
    Safe (assign name value) (fun _ => True) machine := by
  have applied := executes.assign name value
  obtain ⟨stored, coerced⟩ := Value.coerce?_isSome takes
  simp only [Machine.assignLexically, resolves, coerced] at applied
  exact .of_ok applied trivial

theorem stmtCall_safe (activates : ActivatesSafe config fuel program) (nests : program.Nests levels)
    {name : String} {args : List Expr} {kinds : List ValueKind} (executes : machine.Executes levels)
    (typed : Expr.kinds? levels args = some kinds) (fits : fitsCall levels name kinds = true) :
    Safe (do
      let called ← callee name args.length
      let values ← evalAll (activate config fuel) args
      let _ ← call (activate config fuel) called values) (fun _ => True) machine := by
  have arity := Expr.length_of_kinds? typed
  have evaluated := evalAll_safe activates nests args executes typed
  have confined := evalAll_confined (activate_confined config fuel) args executes.linked
  rw [fitsCall] at fits
  cases resolves : resolveRoutine levels name with
  | some found =>
    rw [resolves] at fits
    exact calling_safe activates nests executes resolves fits arity confined evaluated
      fun _ _ _ => .of_ok rfl trivial
  | none =>
    rw [resolves] at fits
    cases builtin : Builtin.find? name with
    | none =>
      rw [builtin] at fits
      cases fits
    | some found =>
      simp only [builtin, decide_eq_true_eq] at fits
      have called : callee name args.length machine = .ok (.builtin found) machine := by
        rw [callee_apply, executes.routine? name, resolves, Option.bind_none, builtin]
        exact if_pos (fits.trans arity.symm)
      rw [Safe, bind_of_ok called]
      refine evaluated.bind fun values _ _ _ => ?_
      have written {after : Machine} :
          Safe (call (activate config fuel) (.builtin found) values) (fun _ => True) after :=
        (runBuiltin_safe found values).bind fun _ _ _ _ => .of_ok rfl trivial
      exact written.bind fun _ _ _ _ => .of_ok rfl trivial

theorem repeatUntil_safe {round : Action Bool}
    (confined : ∀ machine : Machine, machine.Linked → Confined round machine)
    (safe : ∀ machine : Machine, machine.Executes levels → Safe round (fun _ => True) machine)
    (rounds : Nat) {machine : Machine} (executes : machine.Executes levels) :
    Safe (repeatUntil round rounds) (fun _ => True) machine := by
  induction rounds generalizing machine with
  | zero => exact trivial
  | succ rounds ih =>
    refine (safe machine executes).bind fun last after run _ => ?_
    have later := executes.evolve ((confined machine executes.linked).evolves run)
    split
    · exact .of_ok rfl trivial
    · exact ih later

mutual

theorem exec_safe (activates : ActivatesSafe config fuel program) (nests : program.Nests levels)
    (rounds : Nat) (stmt : Stmt) {machine : Machine} (executes : machine.Executes levels)
    (checked : stmt.checks levels = true) :
    Safe (exec (activate config fuel) rounds stmt) (fun _ => True) machine := by
  have sound := activate_confined config fuel
  cases stmt with
  | compound body span =>
    rw [Stmt.checks] at checked
    rw [exec]
    exact execAll_safe activates nests rounds body executes checked
  | assign target value span =>
    rw [Stmt.checks] at checked
    rw [exec]
    split at checked
    · rename_i out type kind resolves typed
      refine (eval_safe activates nests value executes typed).bind fun result _ run kinded => ?_
      have later := executes.after_eval run
      exact assign_safe later resolves (kinded ▸ checked)
    · cases checked
  | call name args span =>
    rw [Stmt.checks] at checked
    rw [exec]
    split at checked
    · rename_i kinds typed
      exact stmtCall_safe activates nests executes typed checked
    · cases checked
  | ifThen cond branch span =>
    rw [Stmt.checks, Bool.and_eq_true, decide_eq_true_eq] at checked
    rw [exec]
    refine (evalCondition_safe activates nests executes checked.1).bind fun truth _ run _ => ?_
    have later := executes.after_condition run
    split
    · exact exec_safe activates nests rounds branch later checked.2
    · exact .of_ok rfl trivial
  | ifElse cond branch otherwise span =>
    rw [Stmt.checks, Bool.and_eq_true, Bool.and_eq_true, decide_eq_true_eq] at checked
    obtain ⟨⟨typed, first⟩, second⟩ := checked
    rw [exec]
    refine (evalCondition_safe activates nests executes typed).bind fun truth _ run _ => ?_
    have later := executes.after_condition run
    split
    · exact exec_safe activates nests rounds branch later first
    · exact exec_safe activates nests rounds otherwise later second
  | repeatUntil body cond span =>
    rw [Stmt.checks, Bool.and_eq_true, decide_eq_true_eq] at checked
    rw [exec]
    refine repeatUntil_safe (fun machine linked => ?_) (fun machine executes => ?_) rounds executes
    · exact (execAll_confined sound rounds body linked).bind fun _ _ _ evolves =>
        evalCondition_confined sound (linked.evolve evolves) cond
    · refine (execAll_safe activates nests rounds body executes checked.1).bind fun _ _ run _ => ?_
      have later := executes.after_execAll run
      exact evalCondition_safe activates nests later checked.2
  | empty span =>
    rw [exec]
    exact .of_ok rfl trivial

theorem execAll_safe (activates : ActivatesSafe config fuel program) (nests : program.Nests levels)
    (rounds : Nat) (body : List Stmt) {machine : Machine} (executes : machine.Executes levels)
    (checked : Stmt.checkAll levels body = true) :
    Safe (execAll (activate config fuel) rounds body) (fun _ => True) machine := by
  cases body with
  | nil =>
    rw [execAll]
    exact .of_ok rfl trivial
  | cons first rest =>
    rw [Stmt.checkAll, Bool.and_eq_true] at checked
    rw [execAll]
    refine (exec_safe activates nests rounds first executes checked.1).bind fun _ _ run _ => ?_
    have later := executes.after_exec run
    exact execAll_safe activates nests rounds rest later checked.2

end

/-- What a function returns is of its type: its result variable is, and so is zero. -/
theorem returned_kind {routine : Routine} {around : List Level}
    (executes : machine.Executes (routine.level :: around)) :
    (returned routine.heading machine).map Value.kind = routine.heading.result.map VarType.kind := by
  obtain ⟨scope, found, activates, sound⟩ := executes.current_activates
  rw [returned, found, Option.bind_some]
  cases result : routine.heading.result with
  | none => rfl
  | some type =>
    simp only [Option.map_some, Option.some.injEq]
    cases stored : scope.localValue? routine.heading.name.name with
    | none => cases type <;> rfl
    | some value =>
      obtain ⟨binding, listed, held⟩ := Option.bind_eq_some_iff.mp stored
      obtain ⟨member, named⟩ := Scope.mem_of_binding? listed
      have own : (binding.name, binding.type) ∈ scope.signature := List.mem_map_of_mem member
      have declared : (routine.heading.name.name, type) ∈ scope.signature := by
        rw [activates.vars]
        simp [Level.vars, Level.bound, Routine.level, Heading.bound, result]
      have distinct : (scope.signature.map Prod.fst).Nodup := by
        rw [Scope.map_fst_signature]
        exact sound.distinct
      have same := List.inj_on_of_nodup_map distinct own declared named
      rw [Option.getD_some, sound.typed binding member value held, (Prod.mk.inj same).2]

/-- A block that keeps the rules executes safely in a new scope. -/
theorem execBlock_safe (activates : ActivatesSafe config fuel program) {level : Level}
    {around : List Level} (nests : program.Nests (level :: around))
    (checked : level.checks around = true) {below : Store} {frame : Scope}
    (opens : frame.Opens below.size level) (linked : below.Linked frame.enclosing)
    (activations : List.Forall₂ below.Activation frame.enclosing around) (sink : Sink)
    (events : List RunEvent) :
    Safe (execBlock (activate config fuel) fuel level.block) (fun _ => True)
        ⟨below.push frame, sink, events⟩ ∧
      ∀ after, execBlock (activate config fuel) fuel level.block ⟨below.push frame, sink, events⟩ =
        .ok () after → after.Executes (level :: around) := by
  obtain ⟨distinct, -, body⟩ := Level.checks_iff.mp checked
  rw [Level.names] at distinct
  obtain ⟨-, declarations, apart⟩ := List.nodup_append.mp distinct
  have fresh name (member : name ∈ Decl.names level.block.declarations) : name ∉ frame.names := by
    rw [Scope.names, ← Scope.map_fst_signature, opens.bound, opens.routines, List.map_nil,
      List.append_nil]
    exact fun bound => apart name bound name member rfl
  obtain ⟨noted, declared⟩ := declareAll_ok below sink events declarations fresh
  obtain ⟨-, executes⟩ := Machine.executes_of_declared opens linked activations declared
  constructor
  · rw [Safe, execBlock, bind_of_ok declared]
    exact execAll_safe activates nests fuel level.block.body executes body
  · intro after run
    rw [execBlock, bind_of_ok declared] at run
    exact executes.after_execAll run

theorem activation_safe (activates : ActivatesSafe config fuel program) {routine : Routine}
    {around : List Level} (nests : program.Nests (routine.level :: around))
    (checked : routine.level.checks around = true) {below : Store} {frame : Scope}
    (opens : frame.Opens below.size routine.level) (linked : below.Linked frame.enclosing)
    (activations : List.Forall₂ below.Activation frame.enclosing around) (sink : Sink)
    (events : List RunEvent) :
    Safe (activation (activate config fuel) fuel routine)
      (fun value => value.map Value.kind = routine.heading.result.map VarType.kind)
      ⟨below.push frame, sink, events⟩ := by
  have applied := activation_apply (activate config fuel) fuel routine
    ⟨below.push frame, sink, events⟩
  generalize RunEvent.enter _ _ _ :: _ = noted at applied
  obtain ⟨safe, ended⟩ := execBlock_safe activates nests checked opens linked activations sink noted
  cases run : execBlock (activate config fuel) fuel routine.block
      ⟨below.push frame, sink, noted⟩ with
  | ok result after =>
    rw [run] at applied
    exact .of_ok applied (returned_kind (ended after run))
  | error stop after =>
    rw [run] at applied
    exact safe.stop run applied

/-- In a program that keeps the rules every activation is safe, however deep it is nested. -/
theorem activate_safe (checked : program.checks = true) (config : Config) (fuel : Nat) :
    ActivatesSafe config fuel program := by
  induction fuel with
  | zero => exact fun _ _ _ _ _ _ _ _ _ _ => trivial
  | succ fuel ih =>
    intro levels out closure args machine nests executes resolves atHome takes
    obtain ⟨owner, atOwner, known⟩ := resolve_some resolves
    obtain ⟨outer, dropped, nested⟩ := nests.drop atOwner
    have inner : program.Nests (closure.routine.level :: owner :: outer) :=
      .routine nested (List.mem_of_find?_eq_some known)
    have level := inner.checks checked
    have applied := activate_succ config fuel closure args machine
    split at applied
    · exact .of_fault applied rfl
    obtain ⟨home, atScope, -⟩ := executes.linked.scope_of_mem (List.mem_of_getElem? atHome)
    have distinct : (closure.routine.heading.bound.map Prod.fst).Nodup :=
      (List.nodup_append.mp (Level.checks_iff.mp level).1).1
    obtain ⟨frame, framed⟩ := Heading.frame_ok closure.name (machine.store.chain closure.home)
      takes distinct
    have arity := Param.length_of_take takes
    rw [List.length_map] at arity
    obtain ⟨-, opens, linked, activations⟩ := executes.opens atHome arity framed
    rw [dropped] at activations
    have body := activation_safe ih inner level opens linked activations machine.sink machine.events
    simp only [atScope, Store.inner, framed] at applied
    cases run : activation (activate config fuel) fuel closure.routine
        ⟨machine.store.push frame, machine.sink, machine.events⟩ with
    | ok value after =>
      rw [run] at applied
      exact .of_ok applied (body.good run)
    | error stop after =>
      rw [run] at applied
      exact body.stop run applied

theorem run_safe (checked : program.checks = true) (config : Config) (fuel : Nat) (sink : Sink) :
    Safe (run config fuel program) (fun _ => True) ⟨.empty, sink, []⟩ := by
  have activates := activate_safe checked config fuel
  obtain ⟨safe, -⟩ := execBlock_safe activates .whole checked (Scope.global_opens program) .nil .nil
    sink [.runStart program.name.name]
  have main : Safe (main config fuel program) (fun _ => True)
      ⟨.initial, sink, [.runStart program.name.name]⟩ :=
    safe.bind fun _ _ _ _ => .of_ok rfl trivial
  rw [Safe, run, bind_of_ok (note_apply _ _), Program.duplicate?_eq_none checked]
  exact main.afresh

end Action

end MiniPascal
