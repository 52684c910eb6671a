import MiniPascal.Proofs.Run.Brackets
import MiniPascal.Proofs.Run.Rises

namespace MiniPascal

namespace Action

/-- However high the bound, it is too low for the computation. -/
def Diverges {α : Type} (family : Nat → Action α) (machine : Machine) : Prop :=
  ∀ fuel, ∃ last, family fuel machine = .error .outOfFuel last

/-- An action that needs no bound. -/
def Prompt {α : Type} (action : Action α) : Prop :=
  ∀ machine last, action machine ≠ .error .outOfFuel last

section

variable {α β : Type} {first : Nat → Action α} {next : Nat → α → Action β} {action : Action α}
  {machine : Machine}

theorem Prompt.not_diverges (prompt : Prompt action) : ¬ Diverges (fun _ => action) machine := by
  intro diverges
  obtain ⟨last, stopped⟩ := diverges 0
  exact prompt machine last stopped

/-- What is too low for one computation is too low for another that does the same otherwise. -/
theorem Diverges.below {wide : Nat → Action α} (diverges : Diverges wide machine)
    (below : ∀ fuel, first fuel machine = wide fuel machine ∨
      ∃ last, first fuel machine = .error .outOfFuel last) : Diverges first machine := by
  intro fuel
  rcases below fuel with same | low
  · rw [same]
    exact diverges fuel
  · exact low

theorem rises_const (action : Action α) : Rises fun _ => action := fun _ _ _ _ => .inl rfl

theorem Rises.bind (rises : Rises first) (later : ∀ result, Rises fun fuel => next fuel result) :
    Rises fun fuel => first fuel >>= next fuel := by
  intro low high le machine
  rcases rises low high le machine with same | ⟨last, stopped⟩
  · cases run : first high machine with
    | error stop last =>
      exact .inl ((bind_of_error (same.trans run)).trans (bind_of_error run).symm)
    | ok result after =>
      have start := same.trans run
      rcases later result low high le after with equal | ⟨last, stopped⟩
      · exact .inl ((bind_of_ok start).trans (equal.trans (bind_of_ok run).symm))
      · exact .inr ⟨last, (bind_of_ok start).trans stopped⟩
  · exact .inr ⟨last, bind_of_error stopped⟩

/-- Where a sequence diverges, its first part does, or that completes and the rest diverges. -/
theorem Diverges.bind (diverges : Diverges (fun fuel => first fuel >>= next fuel) machine)
    (rises : Rises first) (later : ∀ result, Rises fun fuel => next fuel result) :
    Diverges first machine ∨ ∃ enough result after, first enough machine = .ok result after ∧
      Diverges (fun fuel => next fuel result) after := by
  by_cases stuck : Diverges first machine
  · exact .inl stuck
  rw [Diverges, not_forall] at stuck
  obtain ⟨enough, completes⟩ := stuck
  cases run : first enough machine with
  | error stop last =>
    obtain ⟨other, stopped⟩ := diverges enough
    have same := (bind_of_error run).symm.trans stopped
    cases same
    exact absurd ⟨_, run⟩ completes
  | ok result after =>
    refine .inr ⟨enough, result, after, run, fun fuel => ?_⟩
    have start := rises.ok run (Nat.le_max_left enough fuel)
    obtain ⟨last, stopped⟩ := diverges (max enough fuel)
    rcases later result fuel _ (Nat.le_max_right enough fuel) after with same | low
    · exact ⟨last, same.trans ((bind_of_ok start).symm.trans stopped)⟩
    · exact low

/-- A last part that needs no bound is not to blame. -/
theorem Diverges.front {last : α → Action β} (rises : Rises first)
    (prompt : ∀ result, Prompt (last result))
    (diverges : Diverges (fun fuel => first fuel >>= last) machine) : Diverges first machine := by
  rcases diverges.bind rises fun result => rises_const _ with stuck | ⟨_, result, _, -, stuck⟩
  · exact stuck
  · exact absurd stuck (prompt result).not_diverges

end

section

variable {α : Type}

theorem prompt_pure (result : α) : Prompt (pure result) := nofun

theorem prompt_fault (cause : Fault) : Prompt (fault cause : Action α) := nofun

theorem prompt_ofExcept (outcome : Except Fault α) : Prompt (ofExcept outcome) := by
  cases outcome with
  | ok result => exact prompt_pure result
  | error cause => exact prompt_fault cause

theorem prompt_result (name : String) (value : Option Value) : Prompt (result name value) := by
  cases value with
  | some value => exact prompt_pure value
  | none => exact prompt_fault _

theorem prompt_assign (name : String) (value : Value) : Prompt (assign name value) := by
  intro machine last stopped
  rw [assign_apply] at stopped
  split at stopped <;> cases stopped

theorem prompt_callee (name : String) (actual : Nat) : Prompt (callee name actual) := by
  intro machine last stopped
  rw [callee_apply] at stopped
  split at stopped
  · split at stopped <;> cases stopped
  · split at stopped
    · split at stopped <;> cases stopped
    · cases stopped

theorem prompt_builtin (enter : Activate) (builtin : Builtin) (args : List Value) :
    Prompt (call enter (.builtin builtin) args) := by
  intro machine last stopped
  rcases error_of_bind stopped with stopped | ⟨_, _, -, stopped⟩
  · rw [runBuiltin] at stopped
    split at stopped <;> cases stopped
  · cases stopped

variable {config : Config} {machine : Machine}

theorem Diverges.condition {cond : Expr}
    (diverges : Diverges (fun fuel => evalCondition (activate config fuel) cond) machine) :
    Diverges (fun fuel => eval (activate config fuel) cond) machine := by
  refine diverges.front (rises_eval config cond) fun value => ?_
  split
  · exact prompt_pure _
  · exact prompt_fault _

/-- A call diverges in its arguments, or in the activation of the routine that it finds. -/
theorem Diverges.calling {name : String} {args : List Expr} {rest : Option Value → Action α}
    (prompt : ∀ value, Prompt (rest value))
    (diverges : Diverges (fun fuel => do
      let called ← callee name args.length
      let values ← evalAll (activate config fuel) args
      rest (← call (activate config fuel) called values)) machine) :
    ∃ called, callee name args.length machine = .ok called machine ∧
      (Diverges (fun fuel => evalAll (activate config fuel) args) machine ∨
        ∃ enough closure values after, called = .routine closure ∧
          evalAll (activate config enough) args machine = .ok values after ∧
          Diverges (fun fuel => activate config fuel closure values) after) := by
  have evaluated := rises_evalAll config args
  have called (callee : Callee) (values : List Value) :
      Rises fun fuel => call (activate config fuel) callee values >>= rest :=
    (rises_call config callee values).bind fun _ => rises_const _
  rcases diverges.bind (rises_const _) fun callee => evaluated.bind (called callee) with
    stuck | ⟨_, found, same, run, stuck⟩
  · exact absurd stuck (prompt_callee _ _).not_diverges
  obtain rfl := (callee_ok run).1
  refine ⟨found, run, ?_⟩
  rcases stuck.bind evaluated (called found) with stuck | ⟨enough, values, after, evaluates, stuck⟩
  · exact .inl stuck
  have stuck := stuck.front (rises_call config found values) prompt
  cases found with
  | routine closure => exact .inr ⟨enough, closure, values, after, rfl, evaluates, stuck⟩
  | builtin builtin =>
    obtain ⟨last, stopped⟩ := stuck 0
    exact absurd stopped (prompt_builtin _ _ _ _ _)

end

end Action

open MiniPascal.Action

/-- One round of a loop. -/
abbrev Action.round (config : Config) (body : List Stmt) (cond : Expr) (fuel : Nat) :
    Action Bool := do
  execAll (activate config fuel) fuel body
  evalCondition (activate config fuel) cond

/-- The task has no end. A loop that is in its rounds has as many left as it takes. -/
def Task.Diverges (config : Config) : Task → Machine → Prop
  | .stmts body => Action.Diverges fun fuel => execAll (activate config fuel) fuel body
  | .stmt code => Action.Diverges fun fuel => exec (activate config fuel) fuel code
  | .rounds body cond _ =>
    Action.Diverges fun fuel => repeatUntil (round config body cond fuel) fuel
  | .expr code => Action.Diverges fun fuel => eval (activate config fuel) code
  | .exprs codes => Action.Diverges fun fuel => evalAll (activate config fuel) codes
  | .enter closure args => Action.Diverges fun fuel => activate config fuel closure args

/-- With enough fuel the task leads to one that has no end. -/
def Point.LeadsOn (config : Config) (point : Point) : Prop :=
  ∃ more next, Step config (point.raise more) next ∧ next.task.Diverges config next.machine

section

variable {config : Config} {machine : Machine} {fuel : Nat}

theorem rises_round (config : Config) (body : List Stmt) (cond : Expr) :
    Rises (round config body cond) :=
  (rises_execAll config body).bind fun _ => rises_evalCondition config cond

theorem rounds_rise (config : Config) (body : List Stmt) (cond : Expr) {low high left right : Nat}
    (le : low ≤ high) (leRounds : left ≤ right) (machine : Machine) :
    repeatUntil (round config body cond low) left machine =
        repeatUntil (round config body cond high) right machine ∨
      ∃ last, repeatUntil (round config body cond low) left machine = .error .outOfFuel last := by
  have falls := activates_of_le config le
  have once := (execAll_falls falls (within_of_le le) body).bind fun _ =>
    evalCondition_falls falls cond
  exact (repeatUntil_falls once (within_of_le leRounds)).same machine

theorem Invokes.raise {task : Task} {name : String} {args : List Expr}
    (invokes : Invokes machine task name args) (more : Nat) : task.raise more = task := by
  cases invokes <;> rfl

theorem Invokes.leadsOn {task : Task} {name : String} {args : List Expr} {α : Type}
    {rest : Option Value → Action α} (invokes : Invokes machine task name args)
    (prompt : ∀ value, Prompt (rest value))
    (diverges : Action.Diverges (fun fuel => do
      let called ← callee name args.length
      let values ← evalAll (activate config fuel) args
      rest (← call (activate config fuel) called values)) machine) :
    Point.LeadsOn config ⟨fuel, task, machine⟩ := by
  obtain ⟨called, found, stuck | ⟨enough, closure, values, after, rfl, run, stuck⟩⟩ :=
    diverges.calling prompt
  · refine ⟨0, ⟨0 + fuel, .exprs args, machine⟩, ?_, stuck⟩
    rw [Point.raise, invokes.raise]
    rcases invokes.evaluates found with rfl | step
    · obtain ⟨last, stopped⟩ := stuck 0
      cases stopped
    · exact step
  · refine ⟨enough, ⟨enough + fuel, .enter closure values, after⟩, ?_, stuck⟩
    rw [Point.raise, invokes.raise]
    exact invokes.enters found ((rises_evalAll config args).ok run (Nat.le_add_right enough fuel))

theorem leadsOn_name {name : String} {span : Span}
    (diverges : (Task.expr (.var name span)).Diverges config machine) :
    Point.LeadsOn config ⟨fuel, .expr (.var name span), machine⟩ := by
  cases bound : machine.store.binding? machine.current name with
  | some found =>
    obtain ⟨last, stopped⟩ := diverges 0
    simp only [eval, readName_apply, bound] at stopped
    split at stopped <;> cases stopped
  | none =>
    cases visible : (machine.store.routine? machine.current name).isSome with
    | false =>
      obtain ⟨last, stopped⟩ := diverges 0
      simp [eval, readName_apply, bound, visible] at stopped
    | true =>
      refine (Invokes.name bound visible).leadsOn (prompt_result name) fun fuel => ?_
      obtain ⟨last, stopped⟩ := diverges fuel
      exact ⟨last, ((Invokes.name bound visible).eval_eq _).symm.trans stopped⟩

theorem operands_diverge {left right : Expr} {combine : Value → Value → Except Fault Value}
    (diverges : Action.Diverges (fun fuel => do
      let first ← eval (activate config fuel) left
      let second ← eval (activate config fuel) right
      ofExcept (combine first second)) machine) :
    Action.Diverges (fun fuel => eval (activate config fuel) left) machine ∨
      ∃ enough value after, eval (activate config enough) left machine = .ok value after ∧
        Action.Diverges (fun fuel => eval (activate config fuel) right) after := by
  have second := rises_eval config right
  rcases diverges.bind (rises_eval config left) fun _ => second.bind fun _ => rises_const _ with
    stuck | ⟨enough, value, after, run, stuck⟩
  · exact .inl stuck
  · exact .inr ⟨enough, value, after, run, stuck.front second fun _ => prompt_ofExcept _⟩

theorem leadsOn_expr {code : Expr} (diverges : (Task.expr code).Diverges config machine) :
    Point.LeadsOn config ⟨fuel, .expr code, machine⟩ := by
  cases code with
  | number literal span | text value span =>
    obtain ⟨last, stopped⟩ := diverges 0
    simp only [eval] at stopped
    cases stopped
  | var name span => exact leadsOn_name diverges
  | unary op operand span =>
    simp only [Task.Diverges, eval] at diverges
    have stuck := diverges.front (rises_eval config operand) fun value => prompt_ofExcept _
    exact ⟨0, _, .operand, stuck⟩
  | binary left op right span =>
    simp only [Task.Diverges, eval] at diverges
    rcases operands_diverge diverges with stuck | ⟨enough, value, after, run, stuck⟩
    · exact ⟨0, _, .left, stuck⟩
    · have run := (rises_eval config left).ok run (Nat.le_add_right enough fuel)
      exact ⟨enough, _, .right run, stuck⟩
  | relational left op right span =>
    simp only [Task.Diverges, eval] at diverges
    rcases operands_diverge diverges with stuck | ⟨enough, value, after, run, stuck⟩
    · exact ⟨0, _, .comparedLeft, stuck⟩
    · have run := (rises_eval config left).ok run (Nat.le_add_right enough fuel)
      exact ⟨enough, _, .comparedRight run, stuck⟩
  | call name args span =>
    simp only [Task.Diverges, eval] at diverges
    exact Invokes.expr.leadsOn (prompt_result name.name) diverges

theorem leadsOn_exprs {codes : List Expr} (diverges : (Task.exprs codes).Diverges config machine) :
    Point.LeadsOn config ⟨fuel, .exprs codes, machine⟩ := by
  cases codes with
  | nil =>
    obtain ⟨last, stopped⟩ := diverges 0
    simp only [evalAll] at stopped
    cases stopped
  | cons first rest =>
    simp only [Task.Diverges, evalAll] at diverges
    have later := rises_evalAll config rest
    rcases diverges.bind (rises_eval config first) fun _ => later.bind fun _ => rises_const _ with
      stuck | ⟨enough, value, after, run, stuck⟩
    · exact ⟨0, _, .firstExpr, stuck⟩
    · have stuck := stuck.front later fun values => prompt_pure _
      have run := (rises_eval config first).ok run (Nat.le_add_right enough fuel)
      exact ⟨enough, _, .restExprs run, stuck⟩

theorem leadsOn_stmts {body : List Stmt} (diverges : (Task.stmts body).Diverges config machine) :
    Point.LeadsOn config ⟨fuel, .stmts body, machine⟩ := by
  cases body with
  | nil =>
    obtain ⟨last, stopped⟩ := diverges 0
    simp only [execAll] at stopped
    cases stopped
  | cons first rest =>
    simp only [Task.Diverges, execAll] at diverges
    rcases diverges.bind (rises_exec config first) fun _ => rises_execAll config rest with
      stuck | ⟨enough, _, after, run, stuck⟩
    · exact ⟨0, _, .first, stuck⟩
    · have run := (rises_exec config first).ok run (Nat.le_add_right enough fuel)
      exact ⟨enough, _, .rest run, stuck⟩

theorem leadsOn_stmt {code : Stmt} (diverges : (Task.stmt code).Diverges config machine) :
    Point.LeadsOn config ⟨fuel, .stmt code, machine⟩ := by
  cases code with
  | compound body span =>
    simp only [Task.Diverges, exec] at diverges
    exact ⟨0, _, .compound, diverges⟩
  | assign target value span =>
    simp only [Task.Diverges, exec] at diverges
    have stuck := diverges.front (rises_eval config value) fun value => prompt_assign _ value
    exact ⟨0, _, .assigned, stuck⟩
  | call name args span =>
    simp only [Task.Diverges, exec] at diverges
    exact Invokes.stmt.leadsOn (fun value => prompt_pure _) diverges
  | ifThen cond branch span =>
    simp only [Task.Diverges, exec] at diverges
    have later (truth : Bool) : Rises fun fuel =>
        if truth then exec (activate config fuel) fuel branch else pure () := by
      cases truth with
      | true => exact rises_exec config branch
      | false => exact rises_const _
    rcases diverges.bind (rises_evalCondition config cond) later with
      stuck | ⟨enough, truth, after, run, stuck⟩
    · exact ⟨0, _, .ifThenCond, stuck.condition⟩
    · have run := (rises_evalCondition config cond).ok run (Nat.le_add_right enough fuel)
      cases truth with
      | true => exact ⟨enough, _, .ifThenBranch run, stuck⟩
      | false => exact absurd stuck (prompt_pure ()).not_diverges
  | ifElse cond branch otherwise span =>
    simp only [Task.Diverges, exec] at diverges
    have later (truth : Bool) : Rises fun fuel =>
        if truth then exec (activate config fuel) fuel branch
        else exec (activate config fuel) fuel otherwise := by
      cases truth with
      | true => exact rises_exec config branch
      | false => exact rises_exec config otherwise
    rcases diverges.bind (rises_evalCondition config cond) later with
      stuck | ⟨enough, truth, after, run, stuck⟩
    · exact ⟨0, _, .ifElseCond, stuck.condition⟩
    · have run := (rises_evalCondition config cond).ok run (Nat.le_add_right enough fuel)
      cases truth with
      | true => exact ⟨enough, _, .ifElseBranch run, stuck⟩
      | false => exact ⟨enough, _, .ifElseOtherwise run, stuck⟩
  | repeatUntil body cond span =>
    simp only [Task.Diverges, exec] at diverges
    exact ⟨0, _, .loop, diverges⟩
  | empty span =>
    obtain ⟨last, stopped⟩ := diverges 0
    simp only [exec] at stopped
    cases stopped

theorem leadsOn_enter {closure : Closure} {args : List Value}
    (diverges : (Task.enter closure args).Diverges config machine) :
    Point.LeadsOn config ⟨fuel, .enter closure args, machine⟩ := by
  rcases activate_cases config 0 closure args machine with
    ⟨cause, last, -, refused⟩ | ⟨begun, begins⟩
  · obtain ⟨other, stopped⟩ := diverges 1
    have same := refused.symm.trans stopped
    cases same
  · refine ⟨1, ⟨fuel, .stmts closure.routine.block.body, begun⟩, ?_, fun fuel => ?_⟩
    · rw [Point.raise, Nat.add_comm]
      exact .enter begins
    · obtain ⟨last, stopped⟩ := diverges (fuel + 1)
      have same := (activate_of_begins begins).symm.trans stopped
      split at same
      · cases same
      · rename_i body
        cases same
        exact ⟨_, body⟩

theorem leadsOn_rounds {body : List Stmt} {cond : Expr} {left : Nat}
    (diverges : (Task.rounds body cond left).Diverges config machine) :
    Point.LeadsOn config ⟨fuel, .rounds body cond left, machine⟩ := by
  have leads (more : Nat) {next : Point}
      (step : Step config ⟨more + 1 + fuel, .rounds body cond (more + left + 1), machine⟩ next)
      (onward : next.task.Diverges config next.machine) :
      Point.LeadsOn config ⟨fuel, .rounds body cond left, machine⟩ := by
    refine ⟨more + 1, next, ?_, onward⟩
    rw [Point.raise, Task.raise, Nat.add_right_comm more 1 left]
    exact step
  have enough (more : Nat) : more ≤ more + 1 + fuel := by omega
  -- One round is taken off, so that all of them have the same bound on what is inside them.
  have unrolled : Action.Diverges (fun fuel => round config body cond (fuel + 1) >>= fun last =>
      if last then pure () else repeatUntil (round config body cond (fuel + 1)) fuel) machine :=
    fun fuel => diverges (fuel + 1)
  have once : Rises fun fuel => round config body cond (fuel + 1) :=
    fun low high le => rises_round config body cond _ _ (Nat.succ_le_succ le)
  have later (last : Bool) : Rises fun fuel =>
      if last then pure () else repeatUntil (round config body cond (fuel + 1)) fuel := by
    cases last with
    | true => exact rises_const _
    | false => exact fun low high le => rounds_rise config body cond (Nat.succ_le_succ le) le
  rcases unrolled.bind once later with stuck | ⟨more, last, after, run, stuck⟩
  · have stuck : Action.Diverges (round config body cond) machine :=
      stuck.below fun fuel => rises_round config body cond _ _ (Nat.le_succ fuel) machine
    rcases stuck.bind (rises_execAll config body) fun _ => rises_evalCondition config cond with
      stuck | ⟨more, _, after, run, stuck⟩
    · exact leads 0 .roundBody stuck
    · have run := (rises_execAll config body).ok run (enough more)
      exact leads more (.roundCond run) stuck.condition
  · cases last with
    | true => exact absurd stuck (prompt_pure ()).not_diverges
    | false =>
      obtain ⟨_, middle, executed, tested⟩ := ok_of_bind run
      have executed := (rises_execAll config body).ok executed (Nat.le_add_right (more + 1) fuel)
      have tested := (rises_evalCondition config cond).ok tested (Nat.le_add_right (more + 1) fuel)
      refine leads more (.nextRound executed tested) (stuck.below fun fuel => ?_)
      exact rounds_rise config body cond (Nat.le_succ fuel) (Nat.le_refl fuel) after

/-- A task without end leads to another. -/
theorem Task.Diverges.leadsOn {point : Point}
    (diverges : point.task.Diverges config point.machine) : point.LeadsOn config := by
  obtain ⟨fuel, task, machine⟩ := point
  cases task with
  | stmts body => exact leadsOn_stmts diverges
  | stmt code => exact leadsOn_stmt diverges
  | rounds body cond left => exact leadsOn_rounds diverges
  | expr code => exact leadsOn_expr diverges
  | exprs codes => exact leadsOn_exprs diverges
  | enter closure args => exact leadsOn_enter diverges

end

end MiniPascal
