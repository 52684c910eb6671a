import MiniPascal.Interpret
import MiniPascal.Proofs.Layout.Parsing
import MiniPascal.Proofs.Run.Equations

namespace MiniPascal

def Routine.bare (routine : Routine) : Routine := ⟨routine.heading.bare, routine.block.bare⟩

def Closure.bare (closure : Closure) : Closure := ⟨closure.routine.bare, closure.home⟩

def Scope.bare (scope : Scope) : Scope := { scope with routines := scope.routines.map Closure.bare }

/-- The scopes of a run, with the places erased in the code of their routines. -/
def Store.bare (store : Store) : Store := ⟨store.scopes.map Scope.bare⟩

def Machine.bare (machine : Machine) : Machine := { machine with store := machine.store.bare }

section

variable {store : Store} {scope : Scope} {id : ScopeId} {name : String}

@[simp] theorem Store.bare_scope? : store.bare.scope? id = (store.scope? id).map Scope.bare :=
  Array.getElem?_map

@[simp] theorem Store.bare_size : store.bare.size = store.size := Array.size_map

@[simp] theorem Store.bare_chain : store.bare.chain id = store.chain id := by
  rw [Store.chain, Store.chain, Store.bare_scope?]
  cases store.scope? id with
  | none => rfl
  | some scope => rfl

theorem Store.bare_empty : Store.empty.bare = .empty := congrArg Store.mk Array.map_empty

theorem Store.bare_initial : Store.initial.bare = .initial := by
  rw [Store.bare, Store.initial, Array.map_singleton]
  rfl

theorem Store.bare_push : (store.push scope).bare = store.bare.push scope.bare :=
  congrArg Store.mk Array.map_push

theorem Store.bare_pop : store.pop.bare = store.bare.pop :=
  congrArg Store.mk Array.map_pop

theorem Store.bare_set : (store.set id scope).bare = store.bare.set id scope.bare := by
  rw [Store.set, Store.bare, Store.set, Store.bare]
  congr 1
  exact Array.map_setIfInBounds

theorem Store.bare_inner {parent : ScopeId} :
    store.bare.inner name parent = (store.inner name parent).bare := by
  rw [Store.inner, Store.bare_chain]
  rfl

theorem Scope.bare_routine? : scope.bare.routine? name = (scope.routine? name).map Closure.bare := by
  rw [Scope.routine?, Scope.bare, List.find?_map]
  rfl

@[simp] theorem Scope.bare_declares : scope.bare.declares name = scope.declares name := by
  rw [Scope.declares, Scope.declares, Scope.bare_routine?, Option.isSome_map]
  rfl

theorem Store.bare_binding? : store.bare.binding? id name = store.binding? id name := by
  rw [Store.binding?, Store.binding?, Store.bare_chain]
  congr 1
  funext owner
  rw [Store.bare_scope?]
  cases store.scope? owner with
  | none => rfl
  | some scope => rfl

theorem Store.bare_routine? :
    store.bare.routine? id name = (store.routine? id name).map Closure.bare := by
  rw [Store.routine?, Store.routine?, Store.bare_chain, List.map_findSome?]
  congr 1
  funext owner
  rw [Store.bare_scope?, Function.comp_apply]
  cases store.scope? owner with
  | none => rfl
  | some scope => exact Scope.bare_routine?

theorem Store.bare_get : store.bare.get id name = store.get id name := by
  rw [Store.get, Store.get, Store.bare_binding?]

theorem Store.bare_assign {value : Value} :
    store.bare.assign id name value = (store.assign id name value).map Store.bare := by
  rw [Store.assign, Store.assign, Store.bare_binding?]
  cases store.binding? id name with
  | none => rfl
  | some found =>
    obtain ⟨owner, binding⟩ := found
    cases accepted : binding.accept value with
    | error cause => simp only [accepted]; rfl
    | ok stored =>
      simp only [accepted]
      refine congrArg (Except.ok ∘ Store.mk) (Array.ext_getElem? fun index => ?_)
      rw [Array.getElem?_modify, Array.getElem?_map, Store.bare, Array.getElem?_map,
        Array.getElem?_modify]
      split
      · rw [Option.map_map, Option.map_map]
        rfl
      · rfl

theorem Store.bare_update {change change' : Scope → Except Fault Scope}
    (same : ∀ scope, change' scope.bare = (change scope).map Scope.bare) :
    store.bare.update id change' = (store.update id change).map Store.bare := by
  rw [Store.update, Store.update, Store.bare_scope?]
  cases store.scope? id with
  | none => rfl
  | some scope =>
    simp only [Option.map_some, same]
    cases change scope with
    | error cause => rfl
    | ok changed => exact congrArg Except.ok Store.bare_set.symm

theorem Scope.bare_declareVar {type : VarType} :
    scope.bare.declareVar name type = (scope.declareVar name type).map Scope.bare := by
  rw [Scope.declareVar, Scope.declareVar, Scope.bare_declares]
  split <;> rfl

theorem Scope.bare_declareRoutine {closure : Closure} :
    scope.bare.declareRoutine closure.bare = (scope.declareRoutine closure).map Scope.bare := by
  have named : closure.bare.name = closure.name := rfl
  rw [Scope.declareRoutine, Scope.declareRoutine, named, Scope.bare_declares]
  split
  · rfl
  · refine congrArg Except.ok ?_
    simp only [Scope.bare, List.map_append, List.map_singleton]

theorem Scope.bare_bindParam {param : Param} {arg : Value} :
    scope.bare.bindParam param.bare arg = (scope.bindParam param arg).map Scope.bare := by
  have declared : scope.bare.declareVar param.bare.name.name param.bare.type =
      (scope.declareVar param.name.name param.type).map Scope.bare := Scope.bare_declareVar
  have accepts : Binding.accept ⟨param.bare.name.name, param.bare.type, none⟩ arg =
      Binding.accept ⟨param.name.name, param.type, none⟩ arg := rfl
  rw [Scope.bindParam, Scope.bindParam, declared, accepts]
  cases scope.declareVar param.name.name param.type with
  | error cause => rfl
  | ok after =>
    cases Binding.accept ⟨param.name.name, param.type, none⟩ arg with
    | error cause => rfl
    | ok stored => rfl

theorem Scope.bare_bindParams {params : List Param} {args : List Value} :
    scope.bare.bindParams (params.map Param.bare) args =
      (scope.bindParams params args).map Scope.bare := by
  induction params generalizing scope args with
  | nil => rfl
  | cons param params ih =>
    cases args with
    | nil => rfl
    | cons arg args =>
      rw [List.map_cons, Scope.bindParams, Scope.bindParams, Scope.bare_bindParam]
      cases scope.bindParam param arg with
      | error cause => rfl
      | ok after => exact ih

theorem Heading.bare_frame {heading : Heading} {args : List Value} :
    heading.bare.frame scope.bare args = (heading.frame scope args).map Scope.bare := by
  have bound : scope.bare.bindParams heading.bare.params args = _ := Scope.bare_bindParams
  rw [Heading.frame, Heading.frame, bound]
  cases scope.bindParams heading.params args with
  | error cause => rfl
  | ok after =>
    obtain ⟨name, params, result, span⟩ := heading
    cases result with
    | none => rfl
    | some type => exact Scope.bare_declareVar

end

theorem Decl.bare_names (declarations : List Decl) :
    Decl.names (Decl.bareAll declarations) = Decl.names declarations := by
  rw [Decl.names, Decl.names, Decl.bareAll_eq_map, List.map_map]
  apply List.map_congr_left
  intro decl listed
  cases decl with
  | var name type => rfl
  | routine heading declarations body => rfl

theorem Heading.bare_boundNames {heading : Heading} :
    heading.bare.boundNames = heading.boundNames := by
  rw [Heading.boundNames, Heading.boundNames, Heading.bare, List.map_map]
  rfl

mutual

theorem Decl.bare_duplicate? (decl : Decl) : decl.bare.duplicate? = decl.duplicate? := by
  cases decl with
  | var name type => rw [Decl.bare, Decl.duplicate?, Decl.duplicate?]
  | routine heading declarations body =>
    rw [Decl.bare, Decl.duplicate?, Decl.duplicate?, Heading.bare_boundNames, Decl.bare_names,
      Decl.bare_duplicateIn? declarations]

theorem Decl.bare_duplicateIn? (declarations : List Decl) :
    Decl.duplicateIn? (Decl.bareAll declarations) = Decl.duplicateIn? declarations := by
  cases declarations with
  | nil => rfl
  | cons first rest =>
    rw [Decl.bareAll, Decl.duplicateIn?, Decl.duplicateIn?, Decl.bare_duplicate? first,
      Decl.bare_duplicateIn? rest]

end

theorem Block.bare_duplicate? {block : Block} : block.bare.duplicate? = block.duplicate? := by
  rw [Block.duplicate?, Block.duplicate?, Block.bare, Decl.bare_names, Decl.bare_duplicateIn?]

def Callee.bare : Callee → Callee
  | .routine closure => .routine closure.bare
  | .builtin known => .builtin known

theorem Machine.bare_current (machine : Machine) : machine.bare.current = machine.current := by
  rw [Machine.current, Machine.bare, Store.bare_size, Machine.current]

theorem Machine.bare_callDepth (machine : Machine) : machine.bare.callDepth = machine.callDepth :=
  congrArg (· - 1) Store.bare_size

namespace Action

variable {α β : Type} {enter : Activate} {rounds : Nat}

/-- Without the places in its code an action does the same. -/
abbrev Blanks (result : α → β) (plain : Action α) (image : Action β) : Prop :=
  Mirrors id Machine.bare result plain image

/-- Activations that do the same without the places in the code of the routine. -/
def ActivatesBlanks (enter : Activate) : Prop :=
  ∀ closure args, Blanks id (enter closure args) (enter closure.bare args)

theorem fault_blanks (result : α → β) (cause : Fault) : Blanks result (fault cause) (fault cause) :=
  fun _ => rfl

theorem get_blanks : Blanks Machine.bare get get := fun _ => rfl

theorem note_blanks (event : RunEvent) : Blanks id (note event) (note event) := fun _ => rfl

theorem ofExcept_blanks {result : α → β} {outcome : Except Fault α} {image : Except Fault β}
    (same : image = outcome.map result) : Blanks result (ofExcept outcome) (ofExcept image) := by
  subst same
  cases outcome with
  | ok value => exact .pure result value
  | error cause => exact fault_blanks result cause

theorem ofExcept_keeps (outcome : Except Fault α) :
    Blanks id (ofExcept outcome) (ofExcept outcome) :=
  ofExcept_blanks (Except.map_id.symm ▸ rfl)

theorem updateStore_blanks {change change' : ScopeId → Store → Except Fault Store}
    (same : ∀ current store, change' current store.bare = (change current store).map Store.bare) :
    Blanks id (updateStore change) (updateStore change') := by
  refine get_blanks.bind fun machine => ?_
  rw [Machine.bare_current]
  refine (ofExcept_blanks (same machine.current machine.store)).bind fun store => ?_
  exact fun _ => rfl

theorem assign_blanks (name : String) (value : Value) :
    Blanks id (assign name value) (assign name value) :=
  updateStore_blanks fun _ _ => Store.bare_assign

theorem runBuiltin_blanks (builtin : Builtin) (args : List Value) :
    Blanks id (runBuiltin builtin args) (runBuiltin builtin args) := by
  rintro ⟨store, sink, events⟩
  rw [Machine.bare, runBuiltin, runBuiltin]
  rcases builtin.run args sink with ⟨after, _ | cause⟩
  · rfl
  · rfl

theorem callee_blanks (name : String) (actual : Nat) :
    Blanks Callee.bare (callee name actual) (callee name actual) := by
  refine get_blanks.bind fun machine => ?_
  have found : machine.bare.store.routine? machine.current name = _ := Store.bare_routine?
  rw [Machine.bare_current, found]
  cases machine.store.routine? machine.current name with
  | some closure =>
    have params : closure.bare.routine.heading.params.length =
        closure.routine.heading.params.length := List.length_map _
    simp only [Option.map_some, params]
    exact .ite (.pure Callee.bare (.routine closure)) (fault_blanks _ _)
  | none =>
    simp only [Option.map_none]
    cases Builtin.find? name with
    | some builtin => exact .ite (.pure Callee.bare (.builtin builtin)) (fault_blanks _ _)
    | none => exact fault_blanks _ _

theorem call_blanks (enters : ActivatesBlanks enter) (called : Callee) (args : List Value) :
    Blanks id (call enter called args) (call enter called.bare args) := by
  cases called with
  | routine closure => exact enters closure args
  | builtin builtin => exact (runBuiltin_blanks builtin args).bind fun _ => .pure id _

theorem result_blanks (name : String) (value : Option Value) :
    Blanks id (result name value) (result name value) := by
  cases value with
  | some value => exact .pure id value
  | none => exact fault_blanks id _

theorem readName_blanks (enters : ActivatesBlanks enter) (name : String) :
    Blanks id (readName enter name) (readName enter name) := by
  refine get_blanks.bind fun machine => ?_
  have value : machine.bare.store.get machine.current name = _ := Store.bare_get
  have routine : machine.bare.store.routine? machine.current name = _ := Store.bare_routine?
  rw [Machine.bare_current, value, routine, Option.isSome_map]
  split
  · refine .ite ?_ (fault_blanks id _)
    refine (callee_blanks name 0).bind fun called => (call_blanks enters called []).bind ?_
    exact result_blanks name
  · exact ofExcept_keeps _

mutual

theorem eval_blanks (enters : ActivatesBlanks enter) (expr : Expr) :
    Blanks id (eval enter expr) (eval enter expr.bare) := by
  cases expr with
  | number literal span =>
    rw [Expr.bare, eval, eval]
    exact .pure id _
  | text value span =>
    rw [Expr.bare, eval, eval]
    exact .pure id _
  | var name span =>
    rw [Expr.bare, eval, eval]
    exact readName_blanks enters name
  | unary op operand span =>
    rw [Expr.bare, eval, eval]
    exact (eval_blanks enters operand).bind fun value => ofExcept_keeps _
  | binary left op right span =>
    rw [Expr.bare, eval, eval]
    refine (eval_blanks enters left).bind fun first => (eval_blanks enters right).bind fun second => ?_
    exact ofExcept_keeps _
  | relational left op right span =>
    rw [Expr.bare, eval, eval]
    refine (eval_blanks enters left).bind fun first => (eval_blanks enters right).bind fun second => ?_
    exact ofExcept_keeps _
  | call name args span =>
    rw [Expr.bare, eval, eval, Expr.bareAll_eq_map, List.length_map, ← Expr.bareAll_eq_map]
    refine (callee_blanks name.name args.length).bind fun called => ?_
    refine (evalAll_blanks enters args).bind fun values => ?_
    exact (call_blanks enters called values).bind (result_blanks name.name)

theorem evalAll_blanks (enters : ActivatesBlanks enter) (exprs : List Expr) :
    Blanks id (evalAll enter exprs) (evalAll enter (Expr.bareAll exprs)) := by
  cases exprs with
  | nil =>
    rw [Expr.bareAll, evalAll]
    exact .pure id _
  | cons first rest =>
    rw [Expr.bareAll, evalAll, evalAll]
    refine (eval_blanks enters first).bind fun value => ?_
    exact (evalAll_blanks enters rest).bind fun values => .pure id _

end

theorem evalCondition_blanks (enters : ActivatesBlanks enter) (cond : Expr) :
    Blanks id (evalCondition enter cond) (evalCondition enter cond.bare) := by
  refine (eval_blanks enters cond).bind fun value => ?_
  dsimp only [id]
  cases value.asBool? with
  | some truth => exact .pure id truth
  | none => exact fault_blanks id _

theorem repeatUntil_blanks {round round' : Action Bool} (same : Blanks id round round')
    (rounds : Nat) : Blanks id (repeatUntil round rounds) (repeatUntil round' rounds) := by
  induction rounds with
  | zero => exact fun _ => rfl
  | succ rounds ih => exact same.bind fun last => .ite (.pure id ()) ih

mutual

theorem exec_blanks (enters : ActivatesBlanks enter) (stmt : Stmt) :
    Blanks id (exec enter rounds stmt) (exec enter rounds stmt.bare) := by
  cases stmt with
  | compound body span =>
    rw [Stmt.bare, exec, exec]
    exact execAll_blanks enters body
  | assign target value span =>
    rw [Stmt.bare, exec, exec]
    exact (eval_blanks enters value).bind (assign_blanks target.name)
  | call name args span =>
    rw [Stmt.bare, exec, exec, Expr.bareAll_eq_map, List.length_map, ← Expr.bareAll_eq_map]
    refine (callee_blanks name.name args.length).bind fun called => ?_
    refine (evalAll_blanks enters args).bind fun values => ?_
    exact (call_blanks enters called values).bind fun _ => .pure id ()
  | ifThen cond branch span =>
    rw [Stmt.bare, exec, exec]
    refine (evalCondition_blanks enters cond).bind fun truth => ?_
    exact .ite (exec_blanks enters branch) (.pure id ())
  | ifElse cond branch otherwise span =>
    rw [Stmt.bare, exec, exec]
    refine (evalCondition_blanks enters cond).bind fun truth => ?_
    exact .ite (exec_blanks enters branch) (exec_blanks enters otherwise)
  | repeatUntil body cond span =>
    rw [Stmt.bare, exec, exec]
    refine repeatUntil_blanks ?_ rounds
    exact (execAll_blanks enters body).bind fun _ => evalCondition_blanks enters cond
  | empty span =>
    rw [Stmt.bare, exec, exec]
    exact .pure id ()

theorem execAll_blanks (enters : ActivatesBlanks enter) (body : List Stmt) :
    Blanks id (execAll enter rounds body) (execAll enter rounds (Stmt.bareAll body)) := by
  cases body with
  | nil =>
    rw [Stmt.bareAll, execAll]
    exact .pure id ()
  | cons first rest =>
    rw [Stmt.bareAll, execAll, execAll]
    exact (exec_blanks enters first).bind fun _ => execAll_blanks enters rest

end

theorem declare_blanks (decl : Decl) : Blanks id (declare decl) (declare decl.bare) := by
  cases decl with
  | var name type =>
    rw [Decl.bare, declare, declare]
    refine updateStore_blanks fun current store => Store.bare_update fun scope => ?_
    exact Scope.bare_declareVar
  | routine heading declarations body =>
    rw [Decl.bare, declare, declare]
    refine get_blanks.bind fun machine => ?_
    have scope : machine.bare.store.scope? machine.current = _ := Store.bare_scope?
    rw [Machine.bare_current, scope, Option.map_map]
    refine (note_blanks _).bind fun _ => ?_
    refine updateStore_blanks fun current store => Store.bare_update fun scope => ?_
    exact @Scope.bare_declareRoutine scope ⟨⟨heading, ⟨declarations, body⟩⟩, current⟩

theorem declareAll_blanks (declarations : List Decl) :
    Blanks id (declareAll declarations) (declareAll (Decl.bareAll declarations)) := by
  induction declarations with
  | nil => exact .pure id ()
  | cons first rest ih =>
    rw [Decl.bareAll]
    exact (declare_blanks first).bind fun _ => ih

theorem execBlock_blanks (enters : ActivatesBlanks enter) (block : Block) :
    Blanks id (execBlock enter rounds block) (execBlock enter rounds block.bare) :=
  (declareAll_blanks block.declarations).bind fun _ => execAll_blanks enters block.body

theorem inScope_blanks {result : α → β} {plain : Action α} {image : Action β} (scope : Scope)
    (same : Blanks result plain image) :
    Blanks result (inScope scope plain) (inScope scope.bare image) := by
  intro machine
  have inside := same { machine with store := machine.store.push scope }
  rw [Machine.bare, Store.bare_push] at inside
  rw [inScope, inScope, Machine.bare, inside]
  cases plain { machine with store := machine.store.push scope } with
  | ok value after =>
    rw [mapOutcome, mapOutcome, Machine.bare, Machine.bare, Store.bare_pop]
  | error stop after =>
    rw [mapOutcome, mapOutcome, Machine.bare, Machine.bare, Store.bare_pop]

theorem afresh_blanks {result : α → β} {plain : Action α} {image : Action β}
    (same : Blanks result plain image) : Blanks result (afresh plain) (afresh image) := by
  intro machine
  have inside := same { machine with store := .initial }
  rw [Machine.bare, Store.bare_initial] at inside
  rw [afresh, afresh, Machine.bare, inside]
  cases plain { machine with store := .initial } with
  | ok value after => rw [mapOutcome, mapOutcome, Machine.bare, Machine.bare, Store.bare_empty]
  | error stop after => rw [mapOutcome, mapOutcome, Machine.bare, Machine.bare, Store.bare_empty]

theorem activation_blanks (enters : ActivatesBlanks enter) (routine : Routine) :
    Blanks id (activation enter rounds routine) (activation enter rounds routine.bare) := by
  refine get_blanks.bind fun machine => ?_
  rw [Machine.bare_callDepth]
  refine (note_blanks _).bind fun _ => (execBlock_blanks enters routine.block).bind fun _ => ?_
  refine get_blanks.bind fun machine => .returns ?_
  have scope : machine.bare.store.scope? machine.current = _ := Store.bare_scope?
  rw [Machine.bare_current, scope]
  cases machine.store.scope? machine.current with
  | none => rfl
  | some scope => rfl

theorem activate_blanks (config : Config) (fuel : Nat) : ActivatesBlanks (activate config fuel) := by
  induction fuel with
  | zero => exact fun closure args machine => rfl
  | succ fuel ih =>
    intro closure args
    refine get_blanks.bind fun machine => ?_
    rw [Machine.bare_callDepth]
    refine .ite (fault_blanks id _) ?_
    have named : closure.bare.name = closure.name := rfl
    have home : closure.bare.home = closure.home := rfl
    have scope : machine.bare.store.scope? closure.home = _ := Store.bare_scope?
    have inner : machine.bare.store.inner closure.name closure.home = _ := Store.bare_inner
    rw [named, home, scope, inner]
    cases machine.store.scope? closure.home with
    | none =>
      dsimp only [Option.map_none]
      exact fault_blanks id _
    | some home =>
      dsimp only [Option.map_some]
      have framed : closure.bare.routine.heading.frame
          (machine.store.inner closure.name closure.home).bare args = _ := Heading.bare_frame
      refine (ofExcept_blanks framed).bind fun frame => ?_
      refine (inScope_blanks frame (activation_blanks ih closure.routine)).bind fun value => ?_
      exact (note_blanks _).bind fun _ => .pure id value

theorem main_blanks (config : Config) (fuel : Nat) (program : Program) :
    Blanks id (main config fuel program) (main config fuel program.bare) := by
  refine (execBlock_blanks (activate_blanks config fuel) program.block).bind fun _ => ?_
  refine get_blanks.bind fun machine => (note_blanks _).bind fun _ => .returns ?_
  have scope : machine.bare.store.scope? machine.current = _ := Store.bare_scope?
  rw [Machine.bare_current, scope]
  cases machine.store.scope? machine.current with
  | none => rfl
  | some scope => rfl

theorem run_blanks (config : Config) (fuel : Nat) (program : Program) :
    Blanks id (run config fuel program) (run config fuel program.bare) := by
  refine (note_blanks _).bind fun _ => ?_
  have duplicate : program.bare.block.duplicate? = _ := Block.bare_duplicate?
  rw [duplicate]
  cases program.block.duplicate? with
  | some name => exact fault_blanks id _
  | none => exact afresh_blanks (main_blanks config fuel program)

end Action

/-- The places in the code of a program do not come into its run. -/
theorem Program.run_bare (program : Program) (config : Config) (fuel : Nat) (sink : Sink) :
    program.bare.run config fuel sink = program.run config fuel sink := by
  have mirrored := Action.run_blanks config fuel program ⟨.empty, sink, []⟩
  rw [Machine.bare, Store.bare_empty] at mirrored
  cases run : Action.run config fuel program ⟨.empty, sink, []⟩ with
  | ok snapshot last =>
    rw [run] at mirrored
    rw [Program.run_of_ok run, Program.run_of_ok mirrored]
    rfl
  | error stop last =>
    rw [run] at mirrored
    rw [Program.run_of_error run, Program.run_of_error mirrored]
    rfl

/-- A failure without its place in the source. -/
def Failure.bare : Failure → Failure
  | .source error => .source error.bare
  | .fault cause => .fault cause
  | .outOfFuel => .outOfFuel

/-- What interpreting a text gives, but for the place of an error in the text. -/
def Interpretation.bare (interpretation : Interpretation) : Interpretation :=
  { interpretation with outcome := interpretation.outcome.mapError Failure.bare }

theorem ParseStop.failure_bare (stop : ParseStop) : stop.failure.bare = stop.bare.failure := by
  cases stop with
  | error cause => rfl
  | outOfFuel => rfl

theorem parse_bare_eq {first second : String} (same : (scan first).bare = (scan second).bare) :
    (parse first).bare = (parse second).bare := by
  rw [parse, parse, ← Scan.parse_bare, ← Scan.parse_bare, same]

theorem Program.run_eq {program other : Program} (same : program.bare = other.bare)
    (config : Config) (fuel : Nat) (sink : Sink) :
    program.run config fuel sink = other.run config fuel sink := by
  rw [← program.run_bare, same, other.run_bare]

/-- Texts that parse to the same, but for places, are interpreted to the same, but for the place of an
error in the text. -/
theorem interpret_bare_eq {first second : String} (same : (parse first).bare = (parse second).bare)
    (config : Config) (fuel : Nat) (sink : Sink) :
    (interpret config fuel sink first).bare = (interpret config fuel sink second).bare := by
  have events : (parse first).events = (parse second).events := by
    have alike := congrArg Parsed.events same
    exact alike
  have outcomes := congrArg Parsed.outcome same
  rw [Parsed.bare, Parsed.bare] at outcomes
  rw [interpret, interpret, events]
  cases read : (parse first).outcome with
  | error stop =>
    cases read' : (parse second).outcome with
    | error stop' =>
      rw [read, read'] at outcomes
      have stops : stop.bare = stop'.bare := Except.error.inj outcomes
      have failures : stop.failure.bare = stop'.failure.bare := by
        rw [stop.failure_bare, stops, stop'.failure_bare]
      rw [Interpretation.bare, Interpretation.bare]
      exact congrArg (fun failure => Interpretation.mk (.error failure) sink _) failures
    | ok program =>
      rw [read, read'] at outcomes
      cases outcomes
  | ok program =>
    cases read' : (parse second).outcome with
    | error stop =>
      rw [read, read'] at outcomes
      cases outcomes
    | ok other =>
      rw [read, read'] at outcomes
      have programs : program.bare = other.bare := Except.ok.inj outcomes
      simp only [Program.interpret, Program.run_eq programs]

/-- The layout of a text does not come into what it does. Two texts that the scanner reads as the same
tokens, up to the same character where it fails, may have other blanks and comments, and their
keywords in other cases. They parse to the same program or to the same error, with the same events,
and are interpreted with the same outcome, sink and log, but for the places in the program and of
the error. A run does not depend on the places in its program at all. -/
theorem layout_independent {first second : String}
    (same : (scan first).bare = (scan second).bare) :
    (parse first).bare = (parse second).bare ∧
    (∀ config fuel sink,
      (interpret config fuel sink first).bare = (interpret config fuel sink second).bare) ∧
    ∀ program other : Program, program.bare = other.bare → ∀ config fuel sink,
      program.run config fuel sink = other.run config fuel sink := by
  have parsed := parse_bare_eq same
  refine ⟨parsed, interpret_bare_eq parsed, ?_⟩
  intro program other alike config fuel sink
  exact Program.run_eq alike config fuel sink

/-- Two texts of one program, which differ in blanks, in a comment and in the case of keywords. Its
run fails. -/
theorem layout_independent_comment : ∃ first second : String,
    first ≠ second ∧ (scan first).bare = (scan second).bare ∧
      (interpret .default 1 (.empty none) first).bare =
        (interpret .default 1 (.empty none) second).bare ∧
      (interpret .default 1 (.empty none) first).outcome =
        .error (.fault (.undeclaredVariable "x")) := by
  have compact : scan "program P;begin x:=1 end." =
      ⟨[⟨.mark .kwProgram, 0, 7⟩, ⟨.ident "P", 8, 9⟩, ⟨.mark .semicolon, 9, 10⟩,
        ⟨.mark .kwBegin, 10, 15⟩, ⟨.ident "x", 16, 17⟩, ⟨.mark .assign, 17, 19⟩,
        ⟨.integer 1, 19, 20⟩, ⟨.mark .kwEnd, 21, 24⟩, ⟨.mark .dot, 24, 25⟩,
        ⟨.mark .endOfInput, 25, 25⟩], none⟩ := by decide +kernel
  have same : (scan "program P;begin x:=1 end.").bare =
      (scan "PROGRAM P; (* one *)\nBegin x := 1 END.").bare := by decide +kernel
  have parsed : (parse "program P;begin x:=1 end.").outcome = .ok ⟨⟨"P", 8, 9⟩, [],
      [.assign ⟨"x", 16, 17⟩ (.number (.integer 1) ⟨19, 20⟩) ⟨16, 20⟩]⟩ := by
    rw [parse, compact]
    rfl
  have failed : (interpret .default 1 (.empty none) "program P;begin x:=1 end.").outcome =
      .error (.fault (.undeclaredVariable "x")) := by
    rw [interpret, parsed]
    rfl
  obtain ⟨-, interpreted, -⟩ := layout_independent same
  exact ⟨_, _, by decide, same, interpreted .default 1 (.empty none), failed⟩

end MiniPascal
