import MiniPascal.Proofs.Run.Confined

namespace MiniPascal

/-- A piece of work of a run: code to execute or to evaluate, the rounds that a loop has left, or a
routine to activate on the values of its arguments. -/
inductive Task where
  | stmts (body : List Stmt)
  | stmt (stmt : Stmt)
  | rounds (body : List Stmt) (cond : Expr) (left : Nat)
  | expr (expr : Expr)
  | exprs (exprs : List Expr)
  | enter (closure : Closure) (args : List Value)

/-- A task that is about to be done. The fuel is what the evaluator has left there. -/
structure Point where
  fuel : Nat
  task : Task
  machine : Machine

/-- An activation of a routine that has its scope and its declarations, and is about to execute its
statements. -/
structure Begins (config : Config) (closure : Closure) (args : List Value) (before after : Machine) :
    Prop where
  room : before.callDepth < config.maxCallDepth
  home : (before.store.scope? closure.home).isSome
  declared : ∃ frame,
    closure.routine.heading.frame (before.store.inner closure.name closure.home) args = .ok frame ∧
    Action.declareAll closure.routine.block.declarations
      ⟨before.store.push frame, before.sink,
        .enter closure.routine.heading.kind closure.name before.store.size :: before.events⟩ =
      .ok () after

section

open MiniPascal.Action

variable (config : Config)

/-- What a task leads to next: one of its parts, once all that comes before that part has given a
result. -/
inductive Step : Point → Point → Prop where
  | first {fuel stmt rest machine} :
    Step ⟨fuel, .stmts (stmt :: rest), machine⟩ ⟨fuel, .stmt stmt, machine⟩
  | rest {fuel stmt rest machine after}
    (run : exec (activate config fuel) fuel stmt machine = .ok () after) :
    Step ⟨fuel, .stmts (stmt :: rest), machine⟩ ⟨fuel, .stmts rest, after⟩
  | compound {fuel body span machine} :
    Step ⟨fuel, .stmt (.compound body span), machine⟩ ⟨fuel, .stmts body, machine⟩
  | assigned {fuel target value span machine} :
    Step ⟨fuel, .stmt (.assign target value span), machine⟩ ⟨fuel, .expr value, machine⟩
  | stmtArgs {fuel name args span machine called after}
    (found : callee name.name args.length machine = .ok called after) :
    Step ⟨fuel, .stmt (.call name args span), machine⟩ ⟨fuel, .exprs args, after⟩
  | stmtCall {fuel name args span machine closure middle values after}
    (found : callee name.name args.length machine = .ok (.routine closure) middle)
    (run : evalAll (activate config fuel) args middle = .ok values after) :
    Step ⟨fuel, .stmt (.call name args span), machine⟩ ⟨fuel, .enter closure values, after⟩
  | ifThenCond {fuel cond branch span machine} :
    Step ⟨fuel, .stmt (.ifThen cond branch span), machine⟩ ⟨fuel, .expr cond, machine⟩
  | ifThenBranch {fuel cond branch span machine after}
    (run : evalCondition (activate config fuel) cond machine = .ok true after) :
    Step ⟨fuel, .stmt (.ifThen cond branch span), machine⟩ ⟨fuel, .stmt branch, after⟩
  | ifElseCond {fuel cond branch otherwise span machine} :
    Step ⟨fuel, .stmt (.ifElse cond branch otherwise span), machine⟩ ⟨fuel, .expr cond, machine⟩
  | ifElseBranch {fuel cond branch otherwise span machine after}
    (run : evalCondition (activate config fuel) cond machine = .ok true after) :
    Step ⟨fuel, .stmt (.ifElse cond branch otherwise span), machine⟩ ⟨fuel, .stmt branch, after⟩
  | ifElseOtherwise {fuel cond branch otherwise span machine after}
    (run : evalCondition (activate config fuel) cond machine = .ok false after) :
    Step ⟨fuel, .stmt (.ifElse cond branch otherwise span), machine⟩ ⟨fuel, .stmt otherwise, after⟩
  | loop {fuel body cond span machine} :
    Step ⟨fuel, .stmt (.repeatUntil body cond span), machine⟩ ⟨fuel, .rounds body cond fuel, machine⟩
  | roundBody {fuel body cond left machine} :
    Step ⟨fuel, .rounds body cond (left + 1), machine⟩ ⟨fuel, .stmts body, machine⟩
  | roundCond {fuel body cond left machine after}
    (run : execAll (activate config fuel) fuel body machine = .ok () after) :
    Step ⟨fuel, .rounds body cond (left + 1), machine⟩ ⟨fuel, .expr cond, after⟩
  | nextRound {fuel body cond left machine middle after}
    (run : execAll (activate config fuel) fuel body machine = .ok () middle)
    (again : evalCondition (activate config fuel) cond middle = .ok false after) :
    Step ⟨fuel, .rounds body cond (left + 1), machine⟩ ⟨fuel, .rounds body cond left, after⟩
  | nameCall {fuel name span machine closure after}
    (unbound : machine.store.binding? machine.current name = none)
    (found : callee name 0 machine = .ok (.routine closure) after) :
    Step ⟨fuel, .expr (.var name span), machine⟩ ⟨fuel, .enter closure [], after⟩
  | operand {fuel op operand span machine} :
    Step ⟨fuel, .expr (.unary op operand span), machine⟩ ⟨fuel, .expr operand, machine⟩
  | left {fuel left op right span machine} :
    Step ⟨fuel, .expr (.binary left op right span), machine⟩ ⟨fuel, .expr left, machine⟩
  | right {fuel left op right span machine value after}
    (run : eval (activate config fuel) left machine = .ok value after) :
    Step ⟨fuel, .expr (.binary left op right span), machine⟩ ⟨fuel, .expr right, after⟩
  | comparedLeft {fuel left op right span machine} :
    Step ⟨fuel, .expr (.relational left op right span), machine⟩ ⟨fuel, .expr left, machine⟩
  | comparedRight {fuel left op right span machine value after}
    (run : eval (activate config fuel) left machine = .ok value after) :
    Step ⟨fuel, .expr (.relational left op right span), machine⟩ ⟨fuel, .expr right, after⟩
  | exprArgs {fuel name args span machine called after}
    (found : callee name.name args.length machine = .ok called after) :
    Step ⟨fuel, .expr (.call name args span), machine⟩ ⟨fuel, .exprs args, after⟩
  | exprCall {fuel name args span machine closure middle values after}
    (found : callee name.name args.length machine = .ok (.routine closure) middle)
    (run : evalAll (activate config fuel) args middle = .ok values after) :
    Step ⟨fuel, .expr (.call name args span), machine⟩ ⟨fuel, .enter closure values, after⟩
  | firstExpr {fuel expr rest machine} :
    Step ⟨fuel, .exprs (expr :: rest), machine⟩ ⟨fuel, .expr expr, machine⟩
  | restExprs {fuel expr rest machine value after}
    (run : eval (activate config fuel) expr machine = .ok value after) :
    Step ⟨fuel, .exprs (expr :: rest), machine⟩ ⟨fuel, .exprs rest, after⟩
  | enter {fuel closure args machine after} (begins : Begins config closure args machine after) :
    Step ⟨fuel + 1, .enter closure args, machine⟩ ⟨fuel, .stmts closure.routine.block.body, after⟩

/-- The points of a run of a program: its statements, once its declarations are made, and all that
follows from there. -/
inductive Reached (program : Program) (fuel : Nat) (sink : Sink) : Point → Prop where
  | start {machine : Machine} (distinct : program.block.duplicate? = none)
    (declared : declareAll program.block.declarations
      ⟨.initial, sink, [.runStart program.name.name]⟩ = .ok () machine) :
    Reached program fuel sink ⟨fuel, .stmts program.block.body, machine⟩
  | step {point next : Point} (reached : Reached program fuel sink point)
    (step : Step config point next) : Reached program fuel sink next

/-- The evaluator stops on the task of a point. -/
abbrev Point.Stops : Point → RunStop → Prop
  | ⟨fuel, .stmts body, machine⟩, stop =>
    ∃ after, execAll (activate config fuel) fuel body machine = .error stop after
  | ⟨fuel, .stmt code, machine⟩, stop =>
    ∃ after, exec (activate config fuel) fuel code machine = .error stop after
  | ⟨fuel, .rounds body cond left, machine⟩, stop =>
    ∃ after, repeatUntil (do
      execAll (activate config fuel) fuel body
      evalCondition (activate config fuel) cond) left machine = .error stop after
  | ⟨fuel, .expr code, machine⟩, stop =>
    ∃ after, eval (activate config fuel) code machine = .error stop after
  | ⟨fuel, .exprs codes, machine⟩, stop =>
    ∃ after, evalAll (activate config fuel) codes machine = .error stop after
  | ⟨fuel, .enter closure args, machine⟩, stop =>
    ∃ after, activate config fuel closure args machine = .error stop after

/-- The evaluator stops on the task of a point, and this is the machine that it leaves. -/
abbrev Point.StopsIn : Point → RunStop → Machine → Prop
  | ⟨fuel, .stmts body, machine⟩, stop, last =>
    execAll (activate config fuel) fuel body machine = .error stop last
  | ⟨fuel, .stmt code, machine⟩, stop, last =>
    exec (activate config fuel) fuel code machine = .error stop last
  | ⟨fuel, .rounds body cond left, machine⟩, stop, last =>
    repeatUntil (do
      execAll (activate config fuel) fuel body
      evalCondition (activate config fuel) cond) left machine = .error stop last
  | ⟨fuel, .expr code, machine⟩, stop, last =>
    eval (activate config fuel) code machine = .error stop last
  | ⟨fuel, .exprs codes, machine⟩, stop, last =>
    evalAll (activate config fuel) codes machine = .error stop last
  | ⟨fuel, .enter closure args, machine⟩, stop, last =>
    activate config fuel closure args machine = .error stop last

end

section

open MiniPascal.Action

variable {config : Config} {program : Program} {fuel : Nat} {sink : Sink} {point next : Point}
  {stop : RunStop}

theorem evalCondition_of_error {enter : Activate} {cond : Expr} {machine after : Machine}
    (run : eval enter cond machine = .error stop after) :
    evalCondition enter cond machine = .error stop after :=
  bind_of_error run

/-- An activation that begins ends as its statements do. -/
theorem activate_of_begins {closure : Closure} {args : List Value} {before after : Machine}
    (begins : Begins config closure args before after) :
    activate config (fuel + 1) closure args before =
      match execAll (activate config fuel) fuel closure.routine.block.body after with
      | .ok () last =>
        .ok (returned closure.routine.heading last) { last with
          store := last.store.pop
          events := .leave closure.routine.heading.kind closure.name
            (returned closure.routine.heading last) :: last.events }
      | .error stop last => .error stop { last with store := last.store.pop } := by
  obtain ⟨frame, framed, declared⟩ := begins.declared
  obtain ⟨home, atHome⟩ := Option.isSome_iff_exists.mp begins.home
  have room : ¬ config.maxCallDepth ≤ before.callDepth := Nat.not_le.mpr begins.room
  have depth : Machine.callDepth { before with store := before.store.push frame } =
      before.store.size := by
    rw [Machine.callDepth, Store.size_push, Nat.add_sub_cancel]
  rw [activate_succ, if_neg room, atHome]
  rw [Closure.name] at declared
  simp only [framed, activation_apply, depth, execBlock, bind_of_ok declared]
  cases execAll (activate config fuel) fuel closure.routine.block.body after with
  | ok _ last => rfl
  | error stop last => rfl

/-- A step leads to a part of the same execution: where that part stops, so does the whole, and it
leaves what the part left, but for the scopes of the activations that end there. -/
theorem Step.stopsIn {last : Machine} (step : Step config point next)
    (stops : next.StopsIn config stop last) :
    ∃ store, point.StopsIn config stop { last with store := store } := by
  cases step with
  | first => exact ⟨last.store, by rw [Point.StopsIn, execAll, bind_of_error stops]⟩
  | rest run => exact ⟨last.store, by rw [Point.StopsIn, execAll, bind_of_ok run, stops]⟩
  | compound => exact ⟨last.store, by rw [Point.StopsIn, exec, stops]⟩
  | assigned => exact ⟨last.store, by rw [Point.StopsIn, exec, bind_of_error stops]⟩
  | stmtArgs found =>
    exact ⟨last.store, by rw [Point.StopsIn, exec, bind_of_ok found, bind_of_error stops]⟩
  | stmtCall found run =>
    refine ⟨last.store, ?_⟩
    rw [Point.StopsIn, exec, bind_of_ok found, bind_of_ok run]
    exact bind_of_error stops
  | ifThenCond | ifElseCond =>
    exact ⟨last.store, by rw [Point.StopsIn, exec, bind_of_error (evalCondition_of_error stops)]⟩
  | ifThenBranch run | ifElseBranch run | ifElseOtherwise run =>
    refine ⟨last.store, ?_⟩
    rw [Point.StopsIn, exec, bind_of_ok run]
    exact stops
  | loop => exact ⟨last.store, by rw [Point.StopsIn, exec, stops]⟩
  | roundBody =>
    exact ⟨last.store, by rw [Point.StopsIn, repeatUntil, bind_of_error (bind_of_error stops)]⟩
  | roundCond run =>
    refine ⟨last.store, ?_⟩
    rw [Point.StopsIn, repeatUntil]
    apply bind_of_error
    rw [bind_of_ok run]
    exact evalCondition_of_error stops
  | nextRound run again =>
    refine ⟨last.store, ?_⟩
    rw [Point.StopsIn, repeatUntil]
    refine (bind_of_ok ((bind_of_ok run).trans again)).trans ?_
    exact stops
  | nameCall unbound found =>
    have visible := ((callee_ok found).2 _ rfl).1
    refine ⟨last.store, ?_⟩
    rw [Point.StopsIn, eval, readName_apply, unbound]
    simp only [visible, Option.isSome_some, if_true]
    rw [bind_of_ok found]
    exact bind_of_error stops
  | operand | left | comparedLeft =>
    exact ⟨last.store, by rw [Point.StopsIn, eval, bind_of_error stops]⟩
  | right run | comparedRight run =>
    exact ⟨last.store, by rw [Point.StopsIn, eval, bind_of_ok run, bind_of_error stops]⟩
  | exprArgs found =>
    exact ⟨last.store, by rw [Point.StopsIn, eval, bind_of_ok found, bind_of_error stops]⟩
  | exprCall found run =>
    refine ⟨last.store, ?_⟩
    rw [Point.StopsIn, eval, bind_of_ok found, bind_of_ok run]
    exact bind_of_error stops
  | firstExpr => exact ⟨last.store, by rw [Point.StopsIn, evalAll, bind_of_error stops]⟩
  | restExprs run =>
    exact ⟨last.store, by rw [Point.StopsIn, evalAll, bind_of_ok run, bind_of_error stops]⟩
  | enter begins => exact ⟨last.store.pop, by rw [Point.StopsIn, activate_of_begins begins, stops]⟩

/-- The points of a run are places of that run: where the code at one stops, the run ends so, and
neither writes nor notes anything after that. -/
theorem Reached.stopsIn (reached : Reached config program fuel sink point) {last : Machine}
    (stops : point.StopsIn config stop last) :
    program.run config fuel sink = ⟨.error stop, last.sink, last.events.reverse⟩ := by
  induction reached generalizing last with
  | start distinct declared =>
    rcases Program.run_of_declared config fuel distinct declared with
      ⟨other, body, -⟩ | ⟨cause, other, body, same⟩
    · rw [stops] at body
      cases body
    · rw [stops] at body
      cases body
      exact same
  | step reached step ih =>
    obtain ⟨store, stops⟩ := step.stopsIn stops
    have ended := ih stops
    exact ended

theorem Point.Stops.last (stops : point.Stops config stop) :
    ∃ last, point.StopsIn config stop last := by
  obtain ⟨fuel, task, machine⟩ := point
  cases task with
  | stmts | stmt | rounds | expr | exprs | enter => exact stops

theorem Reached.stops (reached : Reached config program fuel sink point)
    (stops : point.Stops config stop) : (program.run config fuel sink).outcome = .error stop := by
  obtain ⟨last, stops⟩ := stops.last
  rw [reached.stopsIn stops]

end

end MiniPascal
