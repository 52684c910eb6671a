import MiniPascal.Proofs.Run.Reached
import MiniPascal.Proofs.Static.Checks

namespace MiniPascal

/-- The faults that a run has only where a block makes its declarations or an activation begins. -/
def Fault.isEntry : Fault → Bool
  | .duplicateDeclaration _ | .recursionLimit _ => true
  | .undeclaredVariable _ | .uninitializedVariable _ | .undefinedRoutine _ | .arityMismatch _ _ _
  | .typeMismatch _ | .divisionByZero | .integerOverflow _ | .sinkClosed => false

/-- The faults of reading, storing and combining values. -/
def Fault.isOfValues : Fault → Bool
  | .undeclaredVariable _ | .uninitializedVariable _ | .typeMismatch _ | .divisionByZero
  | .integerOverflow _ => true
  | .duplicateDeclaration _ | .recursionLimit _ | .undefinedRoutine _ | .arityMismatch _ _ _
  | .sinkClosed => false

theorem Fault.isEntry_of_isOfValues {cause : Fault} (values : cause.isOfValues = true) :
    cause.isEntry = false := by
  cases cause <;> first | rfl | cases values

section

variable {cause : Fault}

theorem IntegerOp.checked_error {operation : IntegerOp} {result : Int}
    (failed : operation.checked result = .error cause) : cause.isOfValues = true := by
  rw [IntegerOp.checked] at failed
  split at failed
  · cases failed
  · cases failed
    rfl

theorem UnaryOp.apply_error {op : UnaryOp} {value : Value}
    (failed : op.apply value = .error cause) : cause.isOfValues = true := by
  revert failed
  fun_cases UnaryOp.apply op value with
  | case1 | case2 | case4 => exact nofun
  | case3 => exact IntegerOp.checked_error
  | case5 =>
    rintro ⟨⟩
    rfl

theorem BinaryOp.applyIntegers?_error {op : BinaryOp} {left right : Int}
    (failed : op.applyIntegers? left right = some (.error cause)) : cause.isOfValues = true := by
  cases op with
  | add | sub | mul => exact IntegerOp.checked_error (Option.some.inj failed)
  | intDiv =>
    have failed := Option.some.inj failed
    split at failed
    · cases failed
      rfl
    · exact IntegerOp.checked_error failed
  | realDiv => cases failed

theorem BinaryOp.applyWidened_error {op : BinaryOp} {left right : Value}
    (failed : op.applyWidened left right = .error cause) : cause.isOfValues = true := by
  rw [BinaryOp.applyWidened] at failed
  split at failed
  · cases failed
  · cases failed
    rfl

theorem BinaryOp.apply_error {op : BinaryOp} {left right : Value}
    (failed : op.apply left right = .error cause) : cause.isOfValues = true := by
  revert failed
  fun_cases BinaryOp.apply op left right with
  | case1 left right result found =>
    rintro rfl
    exact BinaryOp.applyIntegers?_error found
  | case2 | case3 => exact BinaryOp.applyWidened_error

theorem RelationalOp.apply_error {op : RelationalOp} {left right : Value}
    (failed : op.apply left right = .error cause) : cause.isOfValues = true := by
  revert failed
  fun_cases RelationalOp.apply op left right with
  | case1 | case2 => exact nofun
  | case3 =>
    rintro ⟨⟩
    rfl

theorem Store.assign_error {store : Store} {id : ScopeId} {name : String} {value : Value}
    (failed : store.assign id name value = .error cause) : cause.isOfValues = true := by
  rw [Store.assign] at failed
  split at failed
  · cases failed
    rfl
  · rcases except_bind_error.mp failed with refused | ⟨stored, -, failed⟩
    · obtain ⟨mismatch, rfl⟩ := Binding.accept_error refused
      rfl
    · cases failed

end

/-- Why an activation ends before its statements begin. -/
inductive Refuses (config : Config) (closure : Closure) (args : List Value) (before : Machine) :
    Fault → Prop where
  | depth (full : config.maxCallDepth ≤ before.callDepth) :
    Refuses config closure args before (.recursionLimit config.maxCallDepth)
  | home (gone : before.store.scope? closure.home = none) :
    Refuses config closure args before (.undefinedRoutine closure.name)
  | frame {cause : Fault}
    (failed : closure.routine.heading.frame (before.store.inner closure.name closure.home) args =
      .error cause) : Refuses config closure args before cause
  | declarations {frame : Scope} {name : String} {after : Machine}
    (framed : closure.routine.heading.frame (before.store.inner closure.name closure.home) args =
      .ok frame)
    (failed : Action.declareAll closure.routine.block.declarations
      ⟨before.store.push frame, before.sink,
        .enter closure.routine.heading.kind closure.name before.store.size :: before.events⟩ =
      .error (.fault (.duplicateDeclaration name)) after) :
    Refuses config closure args before (.duplicateDeclaration name)

section

open MiniPascal.Action

variable {config : Config} {program : Program} {fuel depth : Nat} {sink : Sink} {cause : Fault}
  {machine after : Machine}

theorem declareAll_error {below : Store} {scope : Scope} {events : List RunEvent}
    {declarations : List Decl} {stop : RunStop}
    (failed : declareAll declarations ⟨below.push scope, sink, events⟩ = .error stop after) :
    ∃ name, stop = .fault (.duplicateDeclaration name) := by
  have made := declareAll_push below scope sink events declarations
  rw [failed] at made
  cases made with
  | taken made stopped taken sound => exact ⟨_, rfl⟩

/-- All that an activation can do first: it is refused, or it begins. -/
theorem activate_cases (config : Config) (depth : Nat) (closure : Closure) (args : List Value)
    (machine : Machine) :
    (∃ cause last, Refuses config closure args machine cause ∧
      activate config (depth + 1) closure args machine = .error (.fault cause) last) ∨
    ∃ begun, Begins config closure args machine begun := by
  rw [activate_succ]
  by_cases full : config.maxCallDepth ≤ machine.callDepth
  · rw [if_pos full]
    exact .inl ⟨_, _, .depth full, rfl⟩
  rw [if_neg full]
  cases home : machine.store.scope? closure.home with
  | none => exact .inl ⟨_, _, .home home, rfl⟩
  | some scope =>
    cases framed : closure.routine.heading.frame
        (machine.store.inner closure.name closure.home) args with
    | error refusal => exact .inl ⟨_, _, .frame framed, rfl⟩
    | ok frame =>
      have size : Machine.callDepth { machine with store := machine.store.push frame } =
          machine.store.size := by
        rw [Machine.callDepth, Store.size_push, Nat.add_sub_cancel]
      simp only [activation_apply, execBlock, size]
      cases declared : declareAll closure.routine.block.declarations
          ⟨machine.store.push frame, machine.sink,
            .enter closure.routine.heading.kind closure.name machine.store.size ::
              machine.events⟩ with
      | error stop last =>
        obtain ⟨name, rfl⟩ := declareAll_error declared
        rw [Closure.name] at declared
        rw [bind_of_error declared]
        exact .inl ⟨_, _, .declarations framed declared, rfl⟩
      | ok _ begun =>
        exact .inr ⟨begun, Nat.not_le.mp full, by rw [home]; rfl, frame, framed, declared⟩

/-- An activation that ends in a fault was refused, or its statements have the fault. -/
theorem activate_error {closure : Closure} {args : List Value}
    (run : activate config (depth + 1) closure args machine = .error (.fault cause) after) :
    Refuses config closure args machine cause ∨
      ∃ begun last, Begins config closure args machine begun ∧
        execAll (activate config depth) depth closure.routine.block.body begun =
          .error (.fault cause) last := by
  rcases activate_cases config depth closure args machine with
    ⟨other, last, refuses, refused⟩ | ⟨begun, begins⟩
  · rw [run] at refused
    cases refused
    exact .inl refuses
  · rw [activate_of_begins begins] at run
    split at run
    · cases run
    · rename_i body
      cases run
      exact .inr ⟨begun, _, begins, body⟩

/-- A function that gives a value has executed its statements, and gives what its result variable
holds then. -/
theorem activate_ok {closure : Closure} {args : List Value} {value : Option Value}
    (run : activate config (depth + 1) closure args machine = .ok value after) :
    ∃ begun last, Begins config closure args machine begun ∧
      execAll (activate config depth) depth closure.routine.block.body begun = .ok () last ∧
        value = returned closure.routine.heading last := by
  rcases activate_cases config depth closure args machine with
    ⟨other, last, -, refused⟩ | ⟨begun, begins⟩
  · rw [run] at refused
    cases refused
  · rw [activate_of_begins begins] at run
    split at run
    · rename_i last body
      cases run
      exact ⟨begun, last, begins, body, rfl⟩
    · cases run

/-- The code of a task calls by a name. A bare name does so where it is no variable but a visible
routine. -/
inductive Invokes (machine : Machine) : Task → String → List Expr → Prop where
  | stmt {name : Ident} {args : List Expr} {span : Span} :
    Invokes machine (.stmt (.call name args span)) name.name args
  | expr {name : Ident} {args : List Expr} {span : Span} :
    Invokes machine (.expr (.call name args span)) name.name args
  | name {name : String} {span : Span}
    (unbound : machine.store.binding? machine.current name = none)
    (visible : (machine.store.routine? machine.current name).isSome) :
    Invokes machine (.expr (.var name span)) name []

theorem Invokes.evaluates {task : Task} {name : String} {args : List Expr} {called : Callee}
    (invokes : Invokes machine task name args)
    (found : callee name args.length machine = .ok called machine) :
    args = [] ∨ Step config ⟨depth, task, machine⟩ ⟨depth, .exprs args, machine⟩ := by
  cases invokes with
  | stmt => exact .inr (.stmtArgs found)
  | expr => exact .inr (.exprArgs found)
  | name unbound visible => exact .inl rfl

theorem Invokes.enters {task : Task} {name : String} {args : List Expr} {closure : Closure}
    {values : List Value} (invokes : Invokes machine task name args)
    (found : callee name args.length machine = .ok (.routine closure) machine)
    (run : evalAll (activate config depth) args machine = .ok values after) :
    Step config ⟨depth, task, machine⟩ ⟨depth, .enter closure values, after⟩ := by
  cases invokes with
  | stmt => exact .stmtCall found run
  | expr => exact .exprCall found run
  | name unbound visible =>
    cases run
    exact .nameCall unbound found

/-- The code at a point has a fault of its own: what it needs from its parts it has got. -/
inductive Raises (config : Config) : Point → Fault → Prop where
  | uncallable {fuel task machine name args cause} (invokes : Invokes machine task name args)
    (failed : callee name args.length machine = .error (.fault cause) machine) :
    Raises config ⟨fuel, task, machine⟩ cause
  | builtin {fuel task machine name args builtin values before cause last}
    (invokes : Invokes machine task name args)
    (found : callee name args.length machine = .ok (.builtin builtin) machine)
    (run : evalAll (activate config fuel) args machine = .ok values before)
    (failed : runBuiltin builtin values before = .error (.fault cause) last) :
    Raises config ⟨fuel, task, machine⟩ cause
  | noResult {fuel code machine name args called values before last}
    (invokes : Invokes machine (.expr code) name args)
    (found : callee name args.length machine = .ok called machine)
    (run : evalAll (activate config fuel) args machine = .ok values before)
    (nothing : call (activate config fuel) called values before = .ok none last) :
    Raises config ⟨fuel, .expr code, machine⟩ (.typeMismatch (.noResult name))
  | unset {fuel name span machine owner binding}
    (found : machine.store.binding? machine.current name = some (owner, binding))
    (empty : binding.value = none) :
    Raises config ⟨fuel, .expr (.var name span), machine⟩ (.uninitializedVariable name)
  | unknown {fuel name span machine}
    (unbound : machine.store.binding? machine.current name = none)
    (hidden : machine.store.routine? machine.current name = none) :
    Raises config ⟨fuel, .expr (.var name span), machine⟩ (.undeclaredVariable name)
  | unary {fuel op operand span machine value after cause}
    (run : eval (activate config fuel) operand machine = .ok value after)
    (failed : op.apply value = .error cause) :
    Raises config ⟨fuel, .expr (.unary op operand span), machine⟩ cause
  | binary {fuel left op right span machine first middle second after cause}
    (run : eval (activate config fuel) left machine = .ok first middle)
    (next : eval (activate config fuel) right middle = .ok second after)
    (failed : op.apply first second = .error cause) :
    Raises config ⟨fuel, .expr (.binary left op right span), machine⟩ cause
  | relational {fuel left op right span machine first middle second after cause}
    (run : eval (activate config fuel) left machine = .ok first middle)
    (next : eval (activate config fuel) right middle = .ok second after)
    (failed : op.apply first second = .error cause) :
    Raises config ⟨fuel, .expr (.relational left op right span), machine⟩ cause
  | assign {fuel target code span machine value after cause}
    (run : eval (activate config fuel) code machine = .ok value after)
    (failed : after.store.assign after.current target.name value = .error cause) :
    Raises config ⟨fuel, .stmt (.assign target code span), machine⟩ cause
  | ifThen {fuel cond branch span machine value after}
    (run : eval (activate config fuel) cond machine = .ok value after)
    (other : value.asBool? = none) :
    Raises config ⟨fuel, .stmt (.ifThen cond branch span), machine⟩
      (.typeMismatch (.condition value.kind))
  | ifElse {fuel cond branch otherwise span machine value after}
    (run : eval (activate config fuel) cond machine = .ok value after)
    (other : value.asBool? = none) :
    Raises config ⟨fuel, .stmt (.ifElse cond branch otherwise span), machine⟩
      (.typeMismatch (.condition value.kind))
  | round {fuel body cond left machine middle value after}
    (executed : execAll (activate config fuel) fuel body machine = .ok () middle)
    (run : eval (activate config fuel) cond middle = .ok value after)
    (other : value.asBool? = none) :
    Raises config ⟨fuel, .rounds body cond (left + 1), machine⟩
      (.typeMismatch (.condition value.kind))
  | refused {fuel closure args machine cause} (refuses : Refuses config closure args machine cause) :
    Raises config ⟨fuel + 1, .enter closure args, machine⟩ cause

/-- Somewhere in the run the code has this fault of its own. -/
def Raised (config : Config) (program : Program) (fuel : Nat) (sink : Sink) (cause : Fault) : Prop :=
  ∃ point, Reached config program fuel sink point ∧ Raises config point cause

/-- Where an activation that the run comes to has the fault, the code has it somewhere. -/
def EntersRaised (config : Config) (program : Program) (fuel : Nat) (sink : Sink) (cause : Fault)
    (depth : Nat) : Prop :=
  ∀ closure args machine after,
    Reached config program fuel sink ⟨depth, .enter closure args, machine⟩ →
      activate config depth closure args machine = .error (.fault cause) after →
        Raised config program fuel sink cause

theorem callee_error {name : String} {actual : Nat} {stop : RunStop}
    (run : callee name actual machine = .error stop after) : after = machine := by
  rw [callee_apply] at run
  split at run
  · split at run <;> cases run
    rfl
  · split at run
    · split at run <;> cases run
      rfl
    · cases run
      rfl

theorem runBuiltin_error {builtin : Builtin} {args : List Value}
    (run : runBuiltin builtin args machine = .error (.fault cause) after) :
    cause = .sinkClosed := by
  rw [runBuiltin, Builtin.run] at run
  split at run
  · cases run
  · rename_i written
    cases run
    split at written
    · cases written
    · cases written
      rfl

theorem ofExcept_error {α : Type} {outcome : Except Fault α}
    (run : ofExcept outcome machine = .error (.fault cause) after) : outcome = .error cause := by
  cases outcome with
  | ok result => cases run
  | error fault =>
    cases run
    rfl

/-- A call that has a fault has it from finding its callee, from its arguments, from the activation
or the builtin, or from what is done with its value. -/
theorem calling_raised (enters : EntersRaised config program fuel sink cause depth) {task : Task}
    {name : String} {args : List Expr} {α : Type} {next : Option Value → Action α}
    (reached : Reached config program fuel sink ⟨depth, task, machine⟩)
    (invokes : Invokes machine task name args)
    (inArgs : ∀ machine after, Reached config program fuel sink ⟨depth, .exprs args, machine⟩ →
      evalAll (activate config depth) args machine = .error (.fault cause) after →
        Raised config program fuel sink cause)
    (inNext : ∀ called values before value last after,
      callee name args.length machine = .ok called machine →
      evalAll (activate config depth) args machine = .ok values before →
      call (activate config depth) called values before = .ok value last →
      next value last = .error (.fault cause) after → Raises config ⟨depth, task, machine⟩ cause)
    (run : (do
      let called ← callee name args.length
      let values ← evalAll (activate config depth) args
      next (← call (activate config depth) called values)) machine = .error (.fault cause) after) :
    Raised config program fuel sink cause := by
  rcases error_of_bind run with failed | ⟨called, same, found, later⟩
  · obtain rfl := callee_error failed
    exact ⟨_, reached, .uncallable invokes failed⟩
  obtain ⟨rfl, -⟩ := callee_ok found
  rcases error_of_bind later with failed | ⟨values, before, evaluated, calling⟩
  · rcases invokes.evaluates found with rfl | step
    · cases failed
    · exact inArgs _ _ (reached.step step) failed
  rcases error_of_bind calling with failed | ⟨value, last, gives, failed⟩
  · cases called with
    | routine closure =>
      exact enters closure values before _ (reached.step (invokes.enters found evaluated)) failed
    | builtin builtin =>
      rcases error_of_bind failed with closed | ⟨_, _, -, failed⟩
      · exact ⟨_, reached, .builtin invokes found evaluated closed⟩
      · cases failed
  · exact ⟨_, reached, inNext called values before value last _ found evaluated gives failed⟩

theorem resulting_raises {code : Expr} {name : String} {args : List Expr}
    (invokes : Invokes machine (.expr code) name args) (called : Callee) (values : List Value)
    (before : Machine) (value : Option Value) (last after : Machine)
    (found : callee name args.length machine = .ok called machine)
    (evaluated : evalAll (activate config depth) args machine = .ok values before)
    (run : call (activate config depth) called values before = .ok value last)
    (failed : result name value last = .error (.fault cause) after) :
    Raises config ⟨depth, .expr code, machine⟩ cause := by
  cases value with
  | some value => cases failed
  | none =>
    cases failed
    exact .noResult invokes found evaluated run

theorem readName_raised (enters : EntersRaised config program fuel sink cause depth) {name : String}
    {span : Span} (reached : Reached config program fuel sink ⟨depth, .expr (.var name span), machine⟩)
    (run : readName (activate config depth) name machine = .error (.fault cause) after) :
    Raised config program fuel sink cause := by
  rw [readName_apply] at run
  split at run
  · rename_i owner binding found
    split at run
    · cases run
    · rename_i empty
      cases run
      exact ⟨_, reached, .unset found empty⟩
  rename_i unbound
  split at run
  · rename_i visible
    have run : (do
        let called ← callee name ([] : List Expr).length
        let values ← evalAll (activate config depth) []
        result name (← call (activate config depth) called values)) machine =
          .error (.fault cause) after := by
      simpa only [List.length_nil, evalAll, pure_bind] using run
    have invokes : Invokes machine (.expr (.var name span)) name [] := .name unbound visible
    refine calling_raised enters reached invokes ?_ (resulting_raises invokes) run
    exact fun machine after _ failed => by cases failed
  · rename_i hidden
    cases run
    exact ⟨_, reached, .unknown unbound (Option.not_isSome_iff_eq_none.mp hidden)⟩

mutual

theorem eval_raised (enters : EntersRaised config program fuel sink cause depth) (expr : Expr)
    {machine after : Machine}
    (reached : Reached config program fuel sink ⟨depth, .expr expr, machine⟩)
    (run : eval (activate config depth) expr machine = .error (.fault cause) after) :
    Raised config program fuel sink cause := by
  cases expr with
  | number literal span =>
    rw [eval] at run
    cases run
  | text value span =>
    rw [eval] at run
    cases run
  | var name span =>
    rw [eval] at run
    exact readName_raised enters reached run
  | unary op operand span =>
    rw [eval] at run
    rcases error_of_bind run with failed | ⟨value, before, evaluated, failed⟩
    · exact eval_raised enters operand (reached.step .operand) failed
    · exact ⟨_, reached, .unary evaluated (ofExcept_error failed)⟩
  | binary left op right span =>
    rw [eval] at run
    rcases error_of_bind run with failed | ⟨first, before, evaluated, run⟩
    · exact eval_raised enters left (reached.step .left) failed
    rcases error_of_bind run with failed | ⟨second, last, next, failed⟩
    · exact eval_raised enters right (reached.step (.right evaluated)) failed
    · exact ⟨_, reached, .binary evaluated next (ofExcept_error failed)⟩
  | relational left op right span =>
    rw [eval] at run
    rcases error_of_bind run with failed | ⟨first, before, evaluated, run⟩
    · exact eval_raised enters left (reached.step .comparedLeft) failed
    rcases error_of_bind run with failed | ⟨second, last, next, failed⟩
    · exact eval_raised enters right (reached.step (.comparedRight evaluated)) failed
    · exact ⟨_, reached, .relational evaluated next (ofExcept_error failed)⟩
  | call name args span =>
    rw [eval] at run
    exact calling_raised enters reached .expr (fun _ _ => evalAll_raised enters args)
      (resulting_raises .expr) run

theorem evalAll_raised (enters : EntersRaised config program fuel sink cause depth)
    (exprs : List Expr) {machine after : Machine}
    (reached : Reached config program fuel sink ⟨depth, .exprs exprs, machine⟩)
    (run : evalAll (activate config depth) exprs machine = .error (.fault cause) after) :
    Raised config program fuel sink cause := by
  cases exprs with
  | nil =>
    rw [evalAll] at run
    cases run
  | cons first rest =>
    rw [evalAll] at run
    rcases error_of_bind run with failed | ⟨value, before, evaluated, run⟩
    · exact eval_raised enters first (reached.step .firstExpr) failed
    rcases error_of_bind run with failed | ⟨values, last, -, failed⟩
    · exact evalAll_raised enters rest (reached.step (.restExprs evaluated)) failed
    · cases failed

end

/-- A condition that has a fault has it from its expression, or is no boolean. -/
theorem evalCondition_error {enter : Activate} {cond : Expr}
    (run : evalCondition enter cond machine = .error (.fault cause) after) :
    eval enter cond machine = .error (.fault cause) after ∨
      ∃ value last, eval enter cond machine = .ok value last ∧ value.asBool? = none ∧
        cause = .typeMismatch (.condition value.kind) := by
  rcases error_of_bind run with failed | ⟨value, before, evaluated, failed⟩
  · exact .inl failed
  · cases truth : value.asBool? with
    | some truth =>
      rw [truth] at failed
      cases failed
    | none =>
      rw [truth] at failed
      cases failed
      exact .inr ⟨value, _, evaluated, truth, rfl⟩

theorem rounds_raised (enters : EntersRaised config program fuel sink cause depth) (body : List Stmt)
    (cond : Expr)
    (inBody : ∀ machine after,
      Reached config program fuel sink ⟨depth, .stmts body, machine⟩ →
        execAll (activate config depth) depth body machine = .error (.fault cause) after →
          Raised config program fuel sink cause)
    (left : Nat) {machine after : Machine}
    (reached : Reached config program fuel sink ⟨depth, .rounds body cond left, machine⟩)
    (run : repeatUntil (do
      execAll (activate config depth) depth body
      evalCondition (activate config depth) cond) left machine = .error (.fault cause) after) :
    Raised config program fuel sink cause := by
  induction left generalizing machine with
  | zero => cases run
  | succ left ih =>
    rw [repeatUntil] at run
    rcases error_of_bind run with failed | ⟨last, middle, round, run⟩
    · rcases error_of_bind failed with failed | ⟨_, before, executed, failed⟩
      · exact inBody machine _ (reached.step .roundBody) failed
      · rcases evalCondition_error failed with failed | ⟨value, last, evaluated, other, rfl⟩
        · exact eval_raised enters cond (reached.step (.roundCond executed)) failed
        · exact ⟨_, reached, .round executed evaluated other⟩
    · obtain ⟨_, before, executed, evaluated⟩ := ok_of_bind round
      cases last with
      | true => cases run
      | false => exact ih (reached.step (.nextRound executed evaluated)) run

mutual

theorem exec_raised (enters : EntersRaised config program fuel sink cause depth) (stmt : Stmt)
    {machine after : Machine}
    (reached : Reached config program fuel sink ⟨depth, .stmt stmt, machine⟩)
    (run : exec (activate config depth) depth stmt machine = .error (.fault cause) after) :
    Raised config program fuel sink cause := by
  cases stmt with
  | compound body span =>
    rw [exec] at run
    exact execAll_raised enters body (reached.step .compound) run
  | assign target code span =>
    rw [exec] at run
    rcases error_of_bind run with failed | ⟨value, before, evaluated, failed⟩
    · exact eval_raised enters code (reached.step .assigned) failed
    · rw [assign_apply] at failed
      split at failed
      · cases failed
      · rename_i refused
        cases failed
        exact ⟨_, reached, .assign evaluated refused⟩
  | call name args span =>
    rw [exec] at run
    refine calling_raised enters reached .stmt (fun _ _ => evalAll_raised enters args) ?_ run
    rintro _ _ _ _ _ _ - - - ⟨⟩
  | ifThen cond branch span =>
    rw [exec] at run
    rcases error_of_bind run with failed | ⟨truth, before, evaluated, run⟩
    · rcases evalCondition_error failed with failed | ⟨value, last, evaluated, other, rfl⟩
      · exact eval_raised enters cond (reached.step .ifThenCond) failed
      · exact ⟨_, reached, .ifThen evaluated other⟩
    · cases truth with
      | true => exact exec_raised enters branch (reached.step (.ifThenBranch evaluated)) run
      | false => cases run
  | ifElse cond branch otherwise span =>
    rw [exec] at run
    rcases error_of_bind run with failed | ⟨truth, before, evaluated, run⟩
    · rcases evalCondition_error failed with failed | ⟨value, last, evaluated, other, rfl⟩
      · exact eval_raised enters cond (reached.step .ifElseCond) failed
      · exact ⟨_, reached, .ifElse evaluated other⟩
    · cases truth with
      | true => exact exec_raised enters branch (reached.step (.ifElseBranch evaluated)) run
      | false => exact exec_raised enters otherwise (reached.step (.ifElseOtherwise evaluated)) run
  | repeatUntil body cond span =>
    rw [exec] at run
    exact rounds_raised enters body cond (fun _ _ => execAll_raised enters body) depth
      (reached.step .loop) run
  | empty span =>
    rw [exec] at run
    cases run

theorem execAll_raised (enters : EntersRaised config program fuel sink cause depth)
    (body : List Stmt) {machine after : Machine}
    (reached : Reached config program fuel sink ⟨depth, .stmts body, machine⟩)
    (run : execAll (activate config depth) depth body machine = .error (.fault cause) after) :
    Raised config program fuel sink cause := by
  cases body with
  | nil =>
    rw [execAll] at run
    cases run
  | cons first rest =>
    rw [execAll] at run
    rcases error_of_bind run with failed | ⟨_, before, executed, failed⟩
    · exact exec_raised enters first (reached.step .first) failed
    · exact execAll_raised enters rest (reached.step (.rest executed)) failed

end

theorem enters_raised (depth : Nat) : EntersRaised config program fuel sink cause depth := by
  induction depth with
  | zero => exact fun closure args machine after _ run => by cases run
  | succ depth ih =>
    intro closure args machine after reached run
    rcases activate_error run with refuses | ⟨begun, last, begins, failed⟩
    · exact ⟨_, reached, .refused refuses⟩
    · exact execAll_raised ih _ (reached.step (.enter begins)) failed

theorem declared_of_distinct (distinct : program.block.duplicate? = none) (sink : Sink) :
    ∃ machine, declareAll program.block.declarations
      ⟨.initial, sink, [.runStart program.name.name]⟩ = .ok () machine := by
  rw [Block.duplicate?, Option.or_eq_none_iff] at distinct
  obtain ⟨names, -⟩ := firstRepeated?_eq_none.mp distinct.1
  have fresh : ∀ name ∈ Decl.names program.block.declarations, name ∉ Scope.global.names := by
    simp [Scope.names, Scope.global]
  obtain ⟨noted, made⟩ := declareAll_ok ⟨#[]⟩ sink [.runStart program.name.name] names fresh
  exact ⟨_, made⟩

/-- Every fault of a run has an origin: the check with which the run begins, or the code at one of
its points. -/
theorem Program.run_raised
    (ended : (program.run config fuel sink).outcome = .error (.fault cause)) :
    (∃ name, program.block.duplicate? = some name ∧ cause = .duplicateDeclaration name) ∨
      Raised config program fuel sink cause := by
  cases check : program.block.duplicate? with
  | some name =>
    rw [Program.run_of_duplicate config fuel sink check] at ended
    cases ended
    exact .inl ⟨name, rfl, rfl⟩
  | none =>
    obtain ⟨machine, declared⟩ := declared_of_distinct check sink
    rcases Program.run_of_declared config fuel check declared with
      ⟨last, -, same⟩ | ⟨stop, last, failed, same⟩
    · rw [same] at ended
      cases ended
    · rw [same] at ended
      cases ended
      exact .inr (execAll_raised (enters_raised fuel) _ (.start check declared) failed)

/-- Why finding a callee fails. -/
theorem callee_cause {name : String} {actual : Nat}
    (failed : callee name actual machine = .error (.fault cause) after) :
    (∃ known expected, cause = .arityMismatch known expected actual) ∨
      cause = .undefinedRoutine name ∧ machine.store.routine? machine.current name = none ∧
        Builtin.find? name = none := by
  rw [callee_apply] at failed
  split at failed
  · split at failed <;> cases failed
    exact .inl ⟨_, _, rfl⟩
  · rename_i hidden
    split at failed
    · split at failed <;> cases failed
      exact .inl ⟨_, _, rfl⟩
    · rename_i unknown
      cases failed
      exact .inr ⟨rfl, hidden, unknown⟩

/-- The faults that the code at a point can have: those of values, or of the sink, or of finding a
callee, or of an activation that is refused. -/
theorem Raises.classified {point : Point} (raises : Raises config point cause) :
    cause.isOfValues = true ∨ cause = .sinkClosed ∨
      (∃ name args, Invokes point.machine point.task name args ∧
        callee name args.length point.machine = .error (.fault cause) point.machine) ∨
      ∃ depth closure args machine, point = ⟨depth + 1, .enter closure args, machine⟩ ∧
        Refuses config closure args machine cause := by
  cases raises with
  | uncallable invokes failed => exact .inr (.inr (.inl ⟨_, _, invokes, failed⟩))
  | builtin invokes found run failed => exact .inr (.inl (runBuiltin_error failed))
  | unary run failed => exact .inl (UnaryOp.apply_error failed)
  | binary run next failed => exact .inl (BinaryOp.apply_error failed)
  | relational run next failed => exact .inl (RelationalOp.apply_error failed)
  | assign run failed => exact .inl (Store.assign_error failed)
  | noResult | unset | unknown | ifThen | ifElse | round => exact .inl rfl
  | refused refuses => exact .inr (.inr (.inr ⟨_, _, _, _, rfl, refuses⟩))

/-- Somewhere in the run an activation is refused for this reason. -/
def Refused (config : Config) (program : Program) (fuel : Nat) (sink : Sink) (cause : Fault) : Prop :=
  ∃ depth closure args machine,
    Reached config program fuel sink ⟨depth + 1, .enter closure args, machine⟩ ∧
      Refuses config closure args machine cause

/-- A run that ends in one of these faults was refused for it: as a whole, by the check with which it
begins, or at an activation. -/
theorem Program.run_refused (entry : cause.isEntry = true)
    (ended : (program.run config fuel sink).outcome = .error (.fault cause)) :
    (∃ name, program.block.duplicate? = some name ∧ cause = .duplicateDeclaration name) ∨
      Refused config program fuel sink cause := by
  rcases Program.run_raised ended with duplicate | ⟨point, reached, raises⟩
  · exact .inl duplicate
  rcases raises.classified with values | rfl | ⟨name, args, invokes, failed⟩ |
    ⟨depth, closure, args, machine, rfl, refuses⟩
  · exact absurd (Fault.isEntry_of_isOfValues values) (by simp [entry])
  · cases entry
  · rcases callee_cause failed with ⟨known, expected, rfl⟩ | ⟨rfl, -⟩ <;> cases entry
  · exact .inr ⟨depth, closure, args, machine, reached, refuses⟩

end

end MiniPascal
