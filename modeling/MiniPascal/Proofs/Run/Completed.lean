import MiniPascal.Proofs.Run.Origin

namespace MiniPascal

open MiniPascal.Action

/-- What is left of a task to take apart: its code, and for a loop the rounds as well. Code counts
twice, so that the rounds of a loop come between the loop and its parts. A routine that is entered has
code of its own, for which there is less fuel. -/
noncomputable def Task.size : Task → Nat × Nat
  | .stmts body => (2 * sizeOf body, 0)
  | .stmt code => (2 * sizeOf code, 0)
  | .rounds body cond left => (2 * (sizeOf body + sizeOf cond) + 1, left)
  | .expr code => (2 * sizeOf code, 0)
  | .exprs codes => (2 * sizeOf codes, 0)
  | .enter _ _ => (0, 0)

/-- No task leads on without end. So a statement about tasks may be proved of each from what it says
of those that the task leads to. -/
theorem Step.wellFounded (config : Config) :
    WellFounded fun next point => Step config point next := by
  have smaller := (Prod.lex Nat.lt_wfRel (Prod.lex Nat.lt_wfRel Nat.lt_wfRel)).wf
  refine Subrelation.wf ?_ (InvImage.wf (fun point : Point => (point.fuel, point.task.size)) smaller)
  intro next point step
  cases step with
  | enter begins => exact .left _ _ (Nat.lt_succ_self _)
  | nextRound run again => exact .right _ (.right _ (Nat.lt_succ_self _))
  | roundBody | roundCond run =>
    refine .right _ (.left _ _ ?_)
    change _ < _
    omega
  | _ =>
    refine .right _ (.left _ _ ?_)
    change _ < _
    simp only [List.cons.sizeOf_spec, Stmt.compound.sizeOf_spec,
      Stmt.assign.sizeOf_spec, Stmt.call.sizeOf_spec, Stmt.ifThen.sizeOf_spec,
      Stmt.ifElse.sizeOf_spec, Stmt.repeatUntil.sizeOf_spec, Expr.unary.sizeOf_spec,
      Expr.var.sizeOf_spec, Expr.binary.sizeOf_spec, Expr.relational.sizeOf_spec,
      Expr.call.sizeOf_spec]
    omega

/-- The task of a point ends with a result, in this machine. -/
abbrev Point.Completes (config : Config) : Point → Machine → Prop
  | ⟨fuel, .stmts body, machine⟩, after =>
    execAll (activate config fuel) fuel body machine = .ok () after
  | ⟨fuel, .stmt code, machine⟩, after =>
    exec (activate config fuel) fuel code machine = .ok () after
  | ⟨fuel, .rounds body cond left, machine⟩, after =>
    repeatUntil (do
      execAll (activate config fuel) fuel body
      evalCondition (activate config fuel) cond) left machine = .ok () after
  | ⟨fuel, .expr code, machine⟩, after =>
    ∃ value, eval (activate config fuel) code machine = .ok value after
  | ⟨fuel, .exprs codes, machine⟩, after =>
    ∃ values, evalAll (activate config fuel) codes machine = .ok values after
  | ⟨fuel, .enter closure args, machine⟩, after =>
    ∃ value, activate config fuel closure args machine = .ok value after

/-- A relation between the machine in which a task of the run begins and the one in which it ends with
a result: what it must allow is an assignment, a builtin, and an activation around a body that it
allows. -/
structure Completion (config : Config) (program : Program) (fuel : Nat) (sink : Sink)
    (allows : Machine → Machine → Prop) : Prop where
  refl : ∀ machine, allows machine machine
  trans : ∀ {before middle after}, allows before middle → allows middle after → allows before after
  assign : ∀ {machine : Machine} {store name value},
    machine.store.assign machine.current name value = .ok store →
      allows machine { machine with store := store }
  builtin : ∀ {builtin args machine after},
    runBuiltin builtin args machine = .ok () after → allows machine after
  activation : ∀ {depth closure args before begun last},
    Reached config program fuel sink ⟨depth + 1, .enter closure args, before⟩ →
    Begins config closure args before begun →
    execAll (activate config depth) depth closure.routine.block.body begun = .ok () last →
    allows begun last →
      allows before { last with
        store := last.store.pop
        events := .leave closure.routine.heading.kind closure.name
          (returned closure.routine.heading last) :: last.events }

section

variable {config : Config} {program : Program} {fuel depth : Nat} {sink : Sink} {cause : Fault}
  {allows : Machine → Machine → Prop} {point next : Point} {machine after : Machine}

theorem evalCondition_ok {enter : Activate} {cond : Expr} {truth : Bool}
    (run : evalCondition enter cond machine = .ok truth after) :
    ∃ value, eval enter cond machine = .ok value after := by
  obtain ⟨value, middle, evaluated, tested⟩ := ok_of_bind run
  cases test : value.asBool? with
  | some truth =>
    rw [test] at tested
    cases tested
    exact ⟨value, evaluated⟩
  | none =>
    rw [test] at tested
    cases tested

theorem evalCondition_of_none {enter : Activate} {cond : Expr} {value : Value}
    (run : eval enter cond machine = .ok value after) (other : value.asBool? = none) :
    evalCondition enter cond machine =
      .error (.fault (.typeMismatch (.condition value.kind))) after := by
  rw [evalCondition, bind_of_ok run, other]
  rfl

theorem ofExcept_ok {α : Type} {outcome : Except Fault α} {result : α}
    (run : ofExcept outcome machine = .ok result after) : after = machine := by
  cases outcome with
  | ok value =>
    cases run
    rfl
  | error cause => cases run

theorem result_ok {name : String} {value : Option Value} {result : Value}
    (run : Action.result name value machine = .ok result after) : after = machine := by
  cases value with
  | some value =>
    cases run
    rfl
  | none => cases run

theorem Completion.evaluates (law : Completion config program fuel sink allows) {task : Task}
    {name : String} {args : List Expr} {called : Callee} {values : List Value}
    (parts : ∀ {next after}, Step config ⟨depth, task, machine⟩ next →
      next.Completes config after → allows next.machine after)
    (invokes : Invokes machine task name args)
    (found : callee name args.length machine = .ok called machine)
    (run : evalAll (activate config depth) args machine = .ok values after) :
    allows machine after := by
  rcases invokes.evaluates found with rfl | step
  · cases run
    exact law.refl machine
  · exact parts step ⟨values, run⟩

theorem Completion.called (law : Completion config program fuel sink allows) {task : Task}
    {name : String} {args : List Expr} {called : Callee} {values : List Value}
    {value : Option Value} {before : Machine}
    (parts : ∀ {next after}, Step config ⟨depth, task, machine⟩ next →
      next.Completes config after → allows next.machine after)
    (invokes : Invokes machine task name args)
    (found : callee name args.length machine = .ok called machine)
    (run : evalAll (activate config depth) args machine = .ok values before)
    (gives : call (activate config depth) called values before = .ok value after) :
    allows before after := by
  cases called with
  | routine closure => exact parts (invokes.enters found run) ⟨value, gives⟩
  | builtin builtin =>
    obtain ⟨_, middle, written, ended⟩ := ok_of_bind gives
    cases ended
    exact law.builtin written

/-- A call that completes has completed its arguments, and then the activation or the builtin. -/
theorem Completion.calling (law : Completion config program fuel sink allows) {task : Task}
    {name : String} {args : List Expr} {α : Type} {rest : Option Value → Action α} {result : α}
    (parts : ∀ {next after}, Step config ⟨depth, task, machine⟩ next →
      next.Completes config after → allows next.machine after)
    (invokes : Invokes machine task name args)
    (keeps : ∀ {value before last result}, rest value before = .ok result last → last = before)
    (run : (do
      let called ← callee name args.length
      let values ← evalAll (activate config depth) args
      rest (← call (activate config depth) called values)) machine = .ok result after) :
    allows machine after := by
  obtain ⟨called, same, found, evaluating⟩ := ok_of_bind run
  obtain rfl := (callee_ok found).1
  obtain ⟨values, before, evaluated, calling⟩ := ok_of_bind evaluating
  obtain ⟨value, last, gives, ending⟩ := ok_of_bind calling
  obtain rfl := keeps ending
  have first := law.evaluates parts invokes found evaluated
  exact law.trans first (law.called parts invokes found evaluated gives)

theorem Completion.readName (law : Completion config program fuel sink allows) {name : String}
    {span : Span} {value : Value}
    (parts : ∀ {next after}, Step config ⟨depth, .expr (.var name span), machine⟩ next →
      next.Completes config after → allows next.machine after)
    (run : readName (activate config depth) name machine = .ok value after) :
    allows machine after := by
  rw [readName_apply] at run
  split at run
  · split at run
    · cases run
      exact law.refl machine
    · cases run
  rename_i unbound
  split at run
  · rename_i visible
    have run : (do
        let called ← callee name ([] : List Expr).length
        let values ← evalAll (activate config depth) []
        result name (← call (activate config depth) called values)) machine = .ok value after := by
      simpa only [List.length_nil, evalAll, pure_bind] using run
    exact law.calling parts (.name unbound visible) result_ok run
  · cases run

theorem Completion.expr (law : Completion config program fuel sink allows) {code : Expr}
    {value : Value}
    (parts : ∀ {next after}, Step config ⟨depth, .expr code, machine⟩ next →
      next.Completes config after → allows next.machine after)
    (run : eval (activate config depth) code machine = .ok value after) : allows machine after := by
  cases code with
  | number literal span | text literal span =>
    rw [eval] at run
    cases run
    exact law.refl machine
  | var name span =>
    rw [eval] at run
    exact law.readName parts run
  | unary op operand span =>
    rw [eval] at run
    obtain ⟨value, middle, evaluated, run⟩ := ok_of_bind run
    obtain rfl := ofExcept_ok run
    exact parts .operand ⟨value, evaluated⟩
  | binary left op right span =>
    rw [eval] at run
    obtain ⟨first, middle, evaluated, run⟩ := ok_of_bind run
    obtain ⟨second, last, later, run⟩ := ok_of_bind run
    obtain rfl := ofExcept_ok run
    exact law.trans (parts .left ⟨first, evaluated⟩) (parts (.right evaluated) ⟨second, later⟩)
  | relational left op right span =>
    rw [eval] at run
    obtain ⟨first, middle, evaluated, run⟩ := ok_of_bind run
    obtain ⟨second, last, later, run⟩ := ok_of_bind run
    obtain rfl := ofExcept_ok run
    exact law.trans (parts .comparedLeft ⟨first, evaluated⟩)
      (parts (.comparedRight evaluated) ⟨second, later⟩)
  | call name args span =>
    rw [eval] at run
    exact law.calling parts .expr result_ok run

theorem Completion.stmt (law : Completion config program fuel sink allows) {code : Stmt}
    (parts : ∀ {next after}, Step config ⟨depth, .stmt code, machine⟩ next →
      next.Completes config after → allows next.machine after)
    (run : exec (activate config depth) depth code machine = .ok () after) :
    allows machine after := by
  cases code with
  | compound body span =>
    rw [exec] at run
    exact parts .compound run
  | assign target value span =>
    rw [exec] at run
    obtain ⟨value, middle, evaluated, run⟩ := ok_of_bind run
    rw [assign_apply] at run
    split at run
    · rename_i store stored
      cases run
      exact law.trans (parts .assigned ⟨value, evaluated⟩) (law.assign stored)
    · cases run
  | call name args span =>
    rw [exec] at run
    refine law.calling parts .stmt ?_ run
    intro value before last result ended
    cases ended
    rfl
  | ifThen cond branch span =>
    rw [exec] at run
    obtain ⟨truth, middle, tested, run⟩ := ok_of_bind run
    have first := parts .ifThenCond (evalCondition_ok tested)
    cases truth with
    | true => exact law.trans first (parts (.ifThenBranch tested) run)
    | false =>
      cases run
      exact first
  | ifElse cond branch otherwise span =>
    rw [exec] at run
    obtain ⟨truth, middle, tested, run⟩ := ok_of_bind run
    have first := parts .ifElseCond (evalCondition_ok tested)
    cases truth with
    | true => exact law.trans first (parts (.ifElseBranch tested) run)
    | false => exact law.trans first (parts (.ifElseOtherwise tested) run)
  | repeatUntil body cond span =>
    rw [exec] at run
    exact parts .loop run
  | empty span =>
    rw [exec] at run
    cases run
    exact law.refl machine

/-- Whatever a run completes, the relation allows. -/
theorem Completion.completes (law : Completion config program fuel sink allows)
    (reached : Reached config program fuel sink point) (completes : point.Completes config after) :
    allows point.machine after := by
  induction point using (Step.wellFounded config).induction generalizing after with
  | _ point ih =>
    have parts : ∀ {next after}, Step config point next → next.Completes config after →
        allows next.machine after := fun step completes => ih _ step (reached.step step) completes
    obtain ⟨depth, task, machine⟩ := point
    cases task with
    | stmts body =>
      cases body with
      | nil =>
        rw [Point.Completes, execAll] at completes
        cases completes
        exact law.refl _
      | cons first rest =>
        rw [Point.Completes, execAll] at completes
        obtain ⟨_, middle, executed, later⟩ := ok_of_bind completes
        have front : allows machine middle := parts .first executed
        exact law.trans front (parts (.rest executed) later)
    | stmt code => exact law.stmt parts completes
    | rounds body cond left =>
      cases left with
      | zero => cases completes
      | succ left =>
        rw [Point.Completes, repeatUntil] at completes
        obtain ⟨last, middle, round, later⟩ := ok_of_bind completes
        obtain ⟨_, before, executed, tested⟩ := ok_of_bind round
        have first := law.trans (parts .roundBody executed)
          (parts (.roundCond executed) (evalCondition_ok tested))
        cases last with
        | true =>
          cases later
          exact first
        | false => exact law.trans first (parts (.nextRound executed tested) later)
    | expr code =>
      obtain ⟨value, run⟩ := completes
      exact law.expr parts run
    | exprs codes =>
      obtain ⟨values, run⟩ := completes
      cases codes with
      | nil =>
        rw [evalAll] at run
        cases run
        exact law.refl _
      | cons first rest =>
        rw [evalAll] at run
        obtain ⟨value, middle, evaluated, run⟩ := ok_of_bind run
        obtain ⟨others, last, later, run⟩ := ok_of_bind run
        cases run
        have front : allows machine middle := parts .firstExpr ⟨value, evaluated⟩
        exact law.trans front (parts (.restExprs evaluated) ⟨others, later⟩)
    | enter closure args =>
      obtain ⟨value, run⟩ := completes
      cases depth with
      | zero => cases run
      | succ depth =>
        obtain ⟨begun, last, begins, body, -⟩ := activate_ok run
        rw [activate_of_begins begins, body] at run
        cases run
        exact law.activation reached begins body (parts (.enter begins) body)

/-- A step goes on from a machine that the relation allows, or begins an activation. -/
theorem Completion.step (law : Completion config program fuel sink allows)
    (reached : Reached config program fuel sink point) (step : Step config point next) :
    allows point.machine next.machine ∨ ∃ closure args, point.task = .enter closure args ∧
      Begins config closure args point.machine next.machine := by
  cases step with
  | first | compound | assigned | ifThenCond | ifElseCond | loop | roundBody | operand | left
  | comparedLeft | firstExpr => exact .inl (law.refl _)
  | rest run => exact .inl (law.completes (reached.step .first) run :)
  | stmtArgs found | exprArgs found | nameCall unbound found =>
    obtain rfl := (callee_ok found).1
    exact .inl (law.refl _)
  | stmtCall found run =>
    obtain rfl := (callee_ok found).1
    exact .inl (law.completes (reached.step (.stmtArgs found)) ⟨_, run⟩ :)
  | exprCall found run =>
    obtain rfl := (callee_ok found).1
    exact .inl (law.completes (reached.step (.exprArgs found)) ⟨_, run⟩ :)
  | ifThenBranch run =>
    exact .inl (law.completes (reached.step .ifThenCond) (evalCondition_ok run) :)
  | ifElseBranch run | ifElseOtherwise run =>
    exact .inl (law.completes (reached.step .ifElseCond) (evalCondition_ok run) :)
  | roundCond run => exact .inl (law.completes (reached.step .roundBody) run :)
  | nextRound run again =>
    have body := law.completes (reached.step .roundBody) run
    have cond := law.completes (reached.step (.roundCond run)) (evalCondition_ok again)
    exact .inl (law.trans body cond)
  | right run => exact .inl (law.completes (reached.step .left) ⟨_, run⟩ :)
  | comparedRight run => exact .inl (law.completes (reached.step .comparedLeft) ⟨_, run⟩ :)
  | restExprs run => exact .inl (law.completes (reached.step .firstExpr) ⟨_, run⟩ :)
  | enter begins => exact .inr ⟨_, _, rfl, begins⟩

theorem Invokes.eval_eq {code : Expr} {name : String} {args : List Expr}
    (invokes : Invokes machine (.expr code) name args) (enter : Activate) :
    eval enter code machine = (do
      let called ← callee name args.length
      let values ← evalAll enter args
      result name (← call enter called values)) machine := by
  cases invokes with
  | expr => rw [eval]
  | name unbound visible =>
    rw [eval, readName_apply, unbound]
    simp only [visible, if_true, List.length_nil, evalAll, pure_bind]

/-- A call that stops before it has its value stops so where it stands. -/
theorem Invokes.stopsIn {task : Task} {name : String} {args : List Expr} {stop : RunStop}
    {last : Machine} (invokes : Invokes machine task name args)
    (run : (do
      let called ← callee name args.length
      let values ← evalAll (activate config depth) args
      call (activate config depth) called values) machine = .error stop last) :
    Point.StopsIn config ⟨depth, task, machine⟩ stop last := by
  cases invokes with
  | stmt =>
    have stops : (_ >>= fun _ => (pure () : Action Unit)) machine = _ := bind_of_error run
    rw [Point.StopsIn, exec]
    simpa only [bind_assoc] using stops
  | @expr name args span =>
    have stops : (_ >>= result name.name) machine = _ := bind_of_error run
    rw [Point.StopsIn, Invokes.expr.eval_eq]
    simpa only [bind_assoc] using stops
  | @name name span unbound visible =>
    have stops : (_ >>= result name) machine = _ := bind_of_error run
    rw [Point.StopsIn, (Invokes.name unbound visible).eval_eq]
    simpa only [bind_assoc] using stops

theorem runBuiltin_keeps {builtin : Builtin} {args : List Value} {stop : RunStop}
    (run : runBuiltin builtin args machine = .error stop after) :
    after.store = machine.store ∧ after.events = machine.events := by
  rw [runBuiltin] at run
  split at run
  · cases run
  · cases run
    exact ⟨rfl, rfl⟩

/-- Code that has a fault of its own has completed what it needs before, and stops there: the fault
changes neither the scopes nor the events. -/
theorem Completion.raises (law : Completion config program fuel sink allows)
    (reached : Reached config program fuel sink point) (raises : Raises config point cause) :
    (∃ before last, allows point.machine before ∧ point.StopsIn config (.fault cause) last ∧
      last.store = before.store ∧ last.events = before.events) ∨
    ∃ depth closure args machine, point = ⟨depth + 1, .enter closure args, machine⟩ ∧
      Refuses config closure args machine cause := by
  have parts : ∀ {next after}, Step config point next → next.Completes config after →
      allows next.machine after := fun step completes => law.completes (reached.step step) completes
  cases raises with
  | uncallable invokes failed =>
    exact .inl ⟨_, _, law.refl _, invokes.stopsIn (bind_of_error failed), rfl, rfl⟩
  | builtin invokes found run failed =>
    have args := law.evaluates parts invokes found run
    have stops := invokes.stopsIn ((bind_of_ok found).trans
      ((bind_of_ok run).trans (bind_of_error failed)))
    obtain ⟨store, events⟩ := runBuiltin_keeps failed
    exact .inl ⟨_, _, args, stops, store, events⟩
  | noResult invokes found run nothing =>
    have args := law.evaluates parts invokes found run
    have called := law.called parts invokes found run nothing
    refine .inl ⟨_, _, law.trans args called, ?_, rfl, rfl⟩
    rw [Point.StopsIn, invokes.eval_eq, bind_of_ok found, bind_of_ok run, bind_of_ok nothing]
    rfl
  | unset found empty =>
    refine .inl ⟨_, _, law.refl _, ?_, rfl, rfl⟩
    rw [Point.StopsIn, eval, readName_apply, found]
    simp only [empty]
  | unknown unbound hidden =>
    refine .inl ⟨_, _, law.refl _, ?_, rfl, rfl⟩
    rw [Point.StopsIn, eval, readName_apply, unbound, hidden]
    rfl
  | unary run failed =>
    have value := parts .operand ⟨_, run⟩
    refine .inl ⟨_, _, value, ?_, rfl, rfl⟩
    rw [Point.StopsIn, eval, bind_of_ok run, failed]
    rfl
  | binary run next failed =>
    have left := parts .left ⟨_, run⟩
    have right := parts (.right run) ⟨_, next⟩
    refine .inl ⟨_, _, law.trans left right, ?_, rfl, rfl⟩
    rw [Point.StopsIn, eval, bind_of_ok run, bind_of_ok next, failed]
    rfl
  | relational run next failed =>
    have left := parts .comparedLeft ⟨_, run⟩
    have right := parts (.comparedRight run) ⟨_, next⟩
    refine .inl ⟨_, _, law.trans left right, ?_, rfl, rfl⟩
    rw [Point.StopsIn, eval, bind_of_ok run, bind_of_ok next, failed]
    rfl
  | assign run failed =>
    have value := parts .assigned ⟨_, run⟩
    refine .inl ⟨_, _, value, ?_, rfl, rfl⟩
    rw [Point.StopsIn, exec, bind_of_ok run, assign_apply, failed]
  | ifThen run other =>
    have value := parts .ifThenCond ⟨_, run⟩
    refine .inl ⟨_, _, value, ?_, rfl, rfl⟩
    rw [Point.StopsIn, exec, bind_of_error (evalCondition_of_none run other)]
  | ifElse run other =>
    have value := parts .ifElseCond ⟨_, run⟩
    refine .inl ⟨_, _, value, ?_, rfl, rfl⟩
    rw [Point.StopsIn, exec, bind_of_error (evalCondition_of_none run other)]
  | round executed run other =>
    have body := parts .roundBody executed
    have cond := parts (.roundCond executed) ⟨_, run⟩
    refine .inl ⟨_, _, law.trans body cond, ?_, rfl, rfl⟩
    rw [Point.StopsIn, repeatUntil]
    apply bind_of_error
    rw [bind_of_ok executed]
    exact evalCondition_of_none run other
  | refused refuses => exact .inr ⟨_, _, _, _, rfl, refuses⟩

end

end MiniPascal
