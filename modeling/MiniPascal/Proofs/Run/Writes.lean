import Mathlib.Data.List.Induction
import MiniPascal.Proofs.Run.Brackets

namespace MiniPascal

open MiniPascal.Action

/-- A value that an assignment stores, and the variable that takes it: the scope that holds the
variable, and its name. -/
structure Write where
  owner : ScopeId
  name : String
  stored : Value

/-- What an assignment to a name stores where its code executes in a scope: the variable is the one
that the name means there, and the value is converted to the type of the variable. -/
def Store.write? (store : Store) (id : ScopeId) (name : String) (value : Value) : Option Write :=
  (store.binding? id name).bind fun (owner, binding) =>
    (value.coerce? binding.type).map (Write.mk owner name)

/-- The last value that a variable of a scope takes in a log. -/
def Write.last? (log : List Write) (owner : ScopeId) (name : String) : Option Value :=
  (log.reverse.find? fun write => write.owner = owner ∧ write.name = name).map Write.stored

/-- A scope after the writes of a log, of which those to other scopes do not concern it. -/
def Scope.replay (id : ScopeId) (scope : Scope) (log : List Write) : Scope :=
  log.foldl (fun scope write =>
    if write.owner = id then scope.setValue write.name write.stored else scope) scope

/-- The writes of a task that completes, in the order in which they are made. The code of a routine
that is called writes between the arguments of the call and what follows it. -/
inductive Point.Writes (config : Config) : Point → List Write → Prop where
  | noStmts {fuel machine} : Writes config ⟨fuel, .stmts [], machine⟩ []
  | stmts {fuel stmt rest machine after log more}
    (first : Writes config ⟨fuel, .stmt stmt, machine⟩ log)
    (run : exec (activate config fuel) fuel stmt machine = .ok () after)
    (later : Writes config ⟨fuel, .stmts rest, after⟩ more) :
    Writes config ⟨fuel, .stmts (stmt :: rest), machine⟩ (log ++ more)
  | compound {fuel body span machine log}
    (inside : Writes config ⟨fuel, .stmts body, machine⟩ log) :
    Writes config ⟨fuel, .stmt (.compound body span), machine⟩ log
  | assign {fuel target code span machine value after write log}
    (source : Writes config ⟨fuel, .expr code, machine⟩ log)
    (run : eval (activate config fuel) code machine = .ok value after)
    (stored : after.store.write? after.current target.name value = some write) :
    Writes config ⟨fuel, .stmt (.assign target code span), machine⟩ (log ++ [write])
  | routine {fuel task name args machine closure values after log more}
    (invokes : Invokes machine task name args)
    (found : callee name args.length machine = .ok (.routine closure) machine)
    (arguments : Writes config ⟨fuel, .exprs args, machine⟩ log)
    (run : evalAll (activate config fuel) args machine = .ok values after)
    (body : Writes config ⟨fuel, .enter closure values, after⟩ more) :
    Writes config ⟨fuel, task, machine⟩ (log ++ more)
  | builtin {fuel task name args machine builtin log} (invokes : Invokes machine task name args)
    (found : callee name args.length machine = .ok (.builtin builtin) machine)
    (arguments : Writes config ⟨fuel, .exprs args, machine⟩ log) :
    Writes config ⟨fuel, task, machine⟩ log
  | ifThenTaken {fuel cond branch span machine after log more}
    (tested : Writes config ⟨fuel, .expr cond, machine⟩ log)
    (run : evalCondition (activate config fuel) cond machine = .ok true after)
    (taken : Writes config ⟨fuel, .stmt branch, after⟩ more) :
    Writes config ⟨fuel, .stmt (.ifThen cond branch span), machine⟩ (log ++ more)
  | ifThenSkipped {fuel cond branch span machine after log}
    (tested : Writes config ⟨fuel, .expr cond, machine⟩ log)
    (run : evalCondition (activate config fuel) cond machine = .ok false after) :
    Writes config ⟨fuel, .stmt (.ifThen cond branch span), machine⟩ log
  | ifElseTaken {fuel cond branch otherwise span machine after log more}
    (tested : Writes config ⟨fuel, .expr cond, machine⟩ log)
    (run : evalCondition (activate config fuel) cond machine = .ok true after)
    (taken : Writes config ⟨fuel, .stmt branch, after⟩ more) :
    Writes config ⟨fuel, .stmt (.ifElse cond branch otherwise span), machine⟩ (log ++ more)
  | ifElseOther {fuel cond branch otherwise span machine after log more}
    (tested : Writes config ⟨fuel, .expr cond, machine⟩ log)
    (run : evalCondition (activate config fuel) cond machine = .ok false after)
    (taken : Writes config ⟨fuel, .stmt otherwise, after⟩ more) :
    Writes config ⟨fuel, .stmt (.ifElse cond branch otherwise span), machine⟩ (log ++ more)
  | loop {fuel body cond span machine log}
    (rounds : Writes config ⟨fuel, .rounds body cond fuel, machine⟩ log) :
    Writes config ⟨fuel, .stmt (.repeatUntil body cond span), machine⟩ log
  | lastRound {fuel body cond left machine middle after log more}
    (inside : Writes config ⟨fuel, .stmts body, machine⟩ log)
    (run : execAll (activate config fuel) fuel body machine = .ok () middle)
    (tested : Writes config ⟨fuel, .expr cond, middle⟩ more)
    (last : evalCondition (activate config fuel) cond middle = .ok true after) :
    Writes config ⟨fuel, .rounds body cond (left + 1), machine⟩ (log ++ more)
  | nextRound {fuel body cond left machine middle after log more further}
    (inside : Writes config ⟨fuel, .stmts body, machine⟩ log)
    (run : execAll (activate config fuel) fuel body machine = .ok () middle)
    (tested : Writes config ⟨fuel, .expr cond, middle⟩ more)
    (again : evalCondition (activate config fuel) cond middle = .ok false after)
    (later : Writes config ⟨fuel, .rounds body cond left, after⟩ further) :
    Writes config ⟨fuel, .rounds body cond (left + 1), machine⟩ (log ++ more ++ further)
  | empty {fuel span machine} : Writes config ⟨fuel, .stmt (.empty span), machine⟩ []
  | number {fuel literal span machine} :
    Writes config ⟨fuel, .expr (.number literal span), machine⟩ []
  | text {fuel value span machine} : Writes config ⟨fuel, .expr (.text value span), machine⟩ []
  | read {fuel name span machine held}
    (bound : machine.store.binding? machine.current name = some held) :
    Writes config ⟨fuel, .expr (.var name span), machine⟩ []
  | unary {fuel op operand span machine log}
    (inside : Writes config ⟨fuel, .expr operand, machine⟩ log) :
    Writes config ⟨fuel, .expr (.unary op operand span), machine⟩ log
  | binary {fuel left op right span machine value after log more}
    (first : Writes config ⟨fuel, .expr left, machine⟩ log)
    (run : eval (activate config fuel) left machine = .ok value after)
    (second : Writes config ⟨fuel, .expr right, after⟩ more) :
    Writes config ⟨fuel, .expr (.binary left op right span), machine⟩ (log ++ more)
  | relational {fuel left op right span machine value after log more}
    (first : Writes config ⟨fuel, .expr left, machine⟩ log)
    (run : eval (activate config fuel) left machine = .ok value after)
    (second : Writes config ⟨fuel, .expr right, after⟩ more) :
    Writes config ⟨fuel, .expr (.relational left op right span), machine⟩ (log ++ more)
  | noExprs {fuel machine} : Writes config ⟨fuel, .exprs [], machine⟩ []
  | exprs {fuel expr rest machine value after log more}
    (first : Writes config ⟨fuel, .expr expr, machine⟩ log)
    (run : eval (activate config fuel) expr machine = .ok value after)
    (later : Writes config ⟨fuel, .exprs rest, after⟩ more) :
    Writes config ⟨fuel, .exprs (expr :: rest), machine⟩ (log ++ more)
  | enter {fuel closure args machine begun log} (begins : Begins config closure args machine begun)
    (inside : Writes config ⟨fuel, .stmts closure.routine.block.body, begun⟩ log) :
    Writes config ⟨fuel + 1, .enter closure args, machine⟩ log

section

variable {store after : Store} {scope : Scope} {id : ScopeId} {name : String} {value : Value}
  {log more : List Write} {write : Write}

theorem Scope.replay_append :
    scope.replay id (log ++ more) = (scope.replay id log).replay id more := by
  rw [Scope.replay, List.foldl_append]
  rfl

theorem Write.last?_concat (log : List Write) (write : Write) (owner : ScopeId) (name : String) :
    Write.last? (log ++ [write]) owner name =
      if write.owner = owner ∧ write.name = name then some write.stored
      else Write.last? log owner name := by
  rw [Write.last?, List.reverse_append, List.reverse_singleton, List.singleton_append,
    List.find?_cons]
  by_cases hits : write.owner = owner ∧ write.name = name
  · simp [hits]
  · simp [hits, Write.last?]

/-- After the writes of a log a variable holds the last value that it has taken, if any. -/
theorem Scope.bindings_replay (log : List Write) :
    (scope.replay id log).bindings = scope.bindings.map fun binding =>
      { binding with value := (Write.last? log id binding.name).or binding.value } := by
  induction log using List.reverseRecOn with
  | nil => simp [Scope.replay, Write.last?]
  | append_singleton log write ih =>
    rw [Scope.replay_append, Scope.replay, List.foldl_cons, List.foldl_nil]
    by_cases own : write.owner = id
    · rw [if_pos own, Scope.setValue, ih, List.map_map]
      refine List.map_congr_left fun binding _ => ?_
      rw [Function.comp_apply, Write.last?_concat]
      by_cases named : binding.name = write.name
      · simp [own, named]
      · simp [own, named, Ne.symm named]
    · rw [if_neg own, ih]
      refine List.map_congr_left fun binding _ => ?_
      rw [Write.last?_concat, if_neg fun hits => own hits.1]

/-- An assignment that succeeds is a write, and each scope is as after that write. -/
theorem Store.assign_write (taken : store.assign id name value = .ok after) :
    ∃ write, store.write? id name value = some write ∧ ∀ other scope,
      store.scope? other = some scope → after.scope? other = some (scope.replay other [write]) := by
  obtain ⟨owner, binding, stored, found, accepted, rfl⟩ := Store.assign_ok taken
  have coerced : value.coerce? binding.type = some stored := by
    rw [Binding.accept] at accepted
    split at accepted
    · cases accepted
      assumption
    · cases accepted
  refine ⟨⟨owner, name, stored⟩, by simp [Store.write?, found, coerced], ?_⟩
  intro other scope atOther
  rw [Store.scope?] at atOther ⊢
  rw [Array.getElem?_modify, atOther, Scope.replay, List.foldl_cons, List.foldl_nil]
  by_cases own : owner = other
  · rw [if_pos own, if_pos own]
    rfl
  · rw [if_neg own, if_neg own]

end

section

variable {config : Config} {program : Program} {fuel depth : Nat} {sink : Sink} {point next : Point}
  {task : Task} {name : String} {args : List Expr} {machine after : Machine} {log : List Write}
  {write : Write}

/-- A call that completes has found its callee and has the values of its arguments. -/
theorem Invokes.completed (invokes : Invokes machine task name args)
    (completes : Point.Completes config ⟨depth, task, machine⟩ after) :
    ∃ called values before value, callee name args.length machine = .ok called machine ∧
      evalAll (activate config depth) args machine = .ok values before ∧
      call (activate config depth) called values before = .ok value after := by
  have evaluated {code : Expr} (invokes : Invokes machine (.expr code) name args)
      (completes : Point.Completes config ⟨depth, .expr code, machine⟩ after) :
      ∃ called values before value, callee name args.length machine = .ok called machine ∧
        evalAll (activate config depth) args machine = .ok values before ∧
        call (activate config depth) called values before = .ok value after := by
    obtain ⟨result, run⟩ := completes
    rw [invokes.eval_eq] at run
    obtain ⟨called, same, found, evaluating⟩ := ok_of_bind run
    obtain rfl := (callee_ok found).1
    obtain ⟨values, before, evaluated, calling⟩ := ok_of_bind evaluating
    obtain ⟨value, last, gives, ending⟩ := ok_of_bind calling
    obtain rfl := result_ok ending
    exact ⟨called, values, before, value, found, evaluated, gives⟩
  cases invokes with
  | stmt =>
    rw [Point.Completes, exec] at completes
    obtain ⟨called, same, found, run⟩ := ok_of_bind completes
    obtain rfl := (callee_ok found).1
    obtain ⟨values, before, evaluated, run⟩ := ok_of_bind run
    obtain ⟨value, last, gives, run⟩ := ok_of_bind run
    cases run
    exact ⟨called, values, before, value, found, evaluated, gives⟩
  | expr => exact evaluated .expr completes
  | name unbound visible => exact evaluated (.name unbound visible) completes

theorem Invokes.writes (invokes : Invokes machine task name args)
    (parts : ∀ {next after}, Step config ⟨depth, task, machine⟩ next →
      next.Completes config after → ∃ log, next.Writes config log)
    (completes : Point.Completes config ⟨depth, task, machine⟩ after) :
    ∃ log, Point.Writes config ⟨depth, task, machine⟩ log := by
  obtain ⟨called, values, before, value, found, evaluated, gives⟩ := invokes.completed completes
  have arguments : ∃ log, Point.Writes config ⟨depth, .exprs args, machine⟩ log := by
    rcases invokes.evaluates found with rfl | step
    · exact ⟨[], .noExprs⟩
    · exact parts step ⟨values, evaluated⟩
  obtain ⟨log, arguments⟩ := arguments
  cases called with
  | routine closure =>
    obtain ⟨more, body⟩ := parts (invokes.enters found evaluated) ⟨value, gives⟩
    exact ⟨log ++ more, .routine invokes found arguments evaluated body⟩
  | builtin builtin => exact ⟨log, .builtin invokes found arguments⟩

theorem Point.writes_expr {code : Expr} {value : Value}
    (parts : ∀ {next after}, Step config ⟨depth, .expr code, machine⟩ next →
      next.Completes config after → ∃ log, next.Writes config log)
    (run : eval (activate config depth) code machine = .ok value after) :
    ∃ log, Point.Writes config ⟨depth, .expr code, machine⟩ log := by
  cases code with
  | number literal span => exact ⟨[], .number⟩
  | text literal span => exact ⟨[], .text⟩
  | var name span =>
    cases bound : machine.store.binding? machine.current name with
    | some held => exact ⟨[], .read bound⟩
    | none =>
      by_cases visible : (machine.store.routine? machine.current name).isSome
      · exact (Invokes.name bound visible).writes parts ⟨value, run⟩
      · rw [eval, readName_apply, bound] at run
        simp only [visible] at run
        cases run
  | unary op operand span =>
    rw [eval] at run
    obtain ⟨first, middle, evaluated, run⟩ := ok_of_bind run
    obtain ⟨log, inside⟩ := parts .operand ⟨first, evaluated⟩
    exact ⟨log, .unary inside⟩
  | binary left op right span =>
    rw [eval] at run
    obtain ⟨first, middle, evaluated, run⟩ := ok_of_bind run
    obtain ⟨second, last, later, run⟩ := ok_of_bind run
    obtain ⟨log, front⟩ := parts .left ⟨first, evaluated⟩
    obtain ⟨more, back⟩ := parts (.right evaluated) ⟨second, later⟩
    exact ⟨log ++ more, .binary front evaluated back⟩
  | relational left op right span =>
    rw [eval] at run
    obtain ⟨first, middle, evaluated, run⟩ := ok_of_bind run
    obtain ⟨second, last, later, run⟩ := ok_of_bind run
    obtain ⟨log, front⟩ := parts .comparedLeft ⟨first, evaluated⟩
    obtain ⟨more, back⟩ := parts (.comparedRight evaluated) ⟨second, later⟩
    exact ⟨log ++ more, .relational front evaluated back⟩
  | call name args span => exact Invokes.expr.writes parts ⟨value, run⟩

theorem Point.writes_stmt {code : Stmt}
    (parts : ∀ {next after}, Step config ⟨depth, .stmt code, machine⟩ next →
      next.Completes config after → ∃ log, next.Writes config log)
    (run : exec (activate config depth) depth code machine = .ok () after) :
    ∃ log, Point.Writes config ⟨depth, .stmt code, machine⟩ log := by
  cases code with
  | compound body span =>
    rw [exec] at run
    obtain ⟨log, inside⟩ := parts .compound run
    exact ⟨log, .compound inside⟩
  | assign target value span =>
    rw [exec] at run
    obtain ⟨value, middle, evaluated, run⟩ := ok_of_bind run
    obtain ⟨log, source⟩ := parts .assigned ⟨value, evaluated⟩
    rw [assign_apply] at run
    split at run
    · rename_i store taken
      obtain ⟨write, stored, -⟩ := Store.assign_write taken
      exact ⟨log ++ [write], .assign source evaluated stored⟩
    · cases run
  | call name args span => exact Invokes.stmt.writes parts run
  | ifThen cond branch span =>
    rw [exec] at run
    obtain ⟨truth, middle, decided, run⟩ := ok_of_bind run
    obtain ⟨log, tested⟩ := parts .ifThenCond (evalCondition_ok decided)
    cases truth with
    | true =>
      obtain ⟨more, taken⟩ := parts (.ifThenBranch decided) run
      exact ⟨log ++ more, .ifThenTaken tested decided taken⟩
    | false => exact ⟨log, .ifThenSkipped tested decided⟩
  | ifElse cond branch otherwise span =>
    rw [exec] at run
    obtain ⟨truth, middle, decided, run⟩ := ok_of_bind run
    obtain ⟨log, tested⟩ := parts .ifElseCond (evalCondition_ok decided)
    cases truth with
    | true =>
      obtain ⟨more, taken⟩ := parts (.ifElseBranch decided) run
      exact ⟨log ++ more, .ifElseTaken tested decided taken⟩
    | false =>
      obtain ⟨more, taken⟩ := parts (.ifElseOtherwise decided) run
      exact ⟨log ++ more, .ifElseOther tested decided taken⟩
  | repeatUntil body cond span =>
    rw [exec] at run
    obtain ⟨log, rounds⟩ := parts .loop run
    exact ⟨log, .loop rounds⟩
  | empty span => exact ⟨[], .empty⟩

/-- A task that completes has a log of what it wrote. -/
theorem Point.Completes.writes (completes : point.Completes config after) :
    ∃ log, point.Writes config log := by
  induction point using (Step.wellFounded config).induction generalizing after with
  | _ point ih =>
    have parts : ∀ {next after}, Step config point next → next.Completes config after →
        ∃ log, next.Writes config log := fun step completes => ih _ step completes
    obtain ⟨depth, task, machine⟩ := point
    cases task with
    | stmts body =>
      cases body with
      | nil => exact ⟨[], .noStmts⟩
      | cons stmt rest =>
        rw [Point.Completes, execAll] at completes
        obtain ⟨_, middle, executed, run⟩ := ok_of_bind completes
        obtain ⟨log, first⟩ := parts .first executed
        obtain ⟨more, later⟩ := parts (.rest executed) run
        exact ⟨log ++ more, .stmts first executed later⟩
    | stmt code => exact Point.writes_stmt parts completes
    | rounds body cond left =>
      cases left with
      | zero => cases completes
      | succ left =>
        rw [Point.Completes, repeatUntil] at completes
        obtain ⟨last, middle, round, run⟩ := ok_of_bind completes
        obtain ⟨_, before, executed, decided⟩ := ok_of_bind round
        obtain ⟨log, inside⟩ := parts .roundBody executed
        obtain ⟨more, tested⟩ := parts (.roundCond executed) (evalCondition_ok decided)
        cases last with
        | true => exact ⟨log ++ more, .lastRound inside executed tested decided⟩
        | false =>
          obtain ⟨further, later⟩ := parts (.nextRound executed decided) run
          exact ⟨log ++ more ++ further, .nextRound inside executed tested decided later⟩
    | expr code =>
      obtain ⟨value, run⟩ := completes
      exact Point.writes_expr parts run
    | exprs codes =>
      obtain ⟨values, run⟩ := completes
      cases codes with
      | nil => exact ⟨[], .noExprs⟩
      | cons expr rest =>
        rw [evalAll] at run
        obtain ⟨value, middle, evaluated, run⟩ := ok_of_bind run
        obtain ⟨others, last, remaining, run⟩ := ok_of_bind run
        obtain ⟨log, first⟩ := parts .firstExpr ⟨value, evaluated⟩
        obtain ⟨more, later⟩ := parts (.restExprs evaluated) ⟨others, remaining⟩
        exact ⟨log ++ more, .exprs first evaluated later⟩
    | enter closure args =>
      obtain ⟨value, run⟩ := completes
      cases depth with
      | zero => cases run
      | succ depth =>
        obtain ⟨begun, last, begins, body, -⟩ := activate_ok run
        obtain ⟨log, inside⟩ := parts (.enter begins) body
        exact ⟨log, .enter begins inside⟩

theorem ok_unique {α : Type} {action : Action α} {before middle : Machine} {one other : α}
    (run : action before = .ok one middle) (again : action before = .ok other after) :
    one = other ∧ middle = after := by
  rw [run] at again
  cases again
  exact ⟨rfl, rfl⟩

theorem call_builtin_store {enter : Activate} {builtin : Builtin} {values : List Value}
    {value : Option Value} (run : call enter (.builtin builtin) values machine = .ok value after) :
    after.store = machine.store := by
  obtain ⟨_, middle, written, ended⟩ := ok_of_bind run
  cases ended
  rw [runBuiltin] at written
  split at written
  · cases written
    rfl
  · cases written

/-- A task that completes leaves each scope that was there as the writes of the task leave it. The
scope of an activation lies above these, and is gone when the activation ends. -/
theorem Point.Writes.replays {id : ScopeId} {scope : Scope} (writes : point.Writes config log)
    (completes : point.Completes config after)
    (found : point.machine.store.scope? id = some scope) :
    after.store.scope? id = some (scope.replay id log) := by
  induction writes generalizing after id scope with
  | noStmts =>
    rw [Point.Completes, execAll] at completes
    cases completes
    exact found
  | stmts first run later ih ih' =>
    rw [Point.Completes, execAll, bind_of_ok run] at completes
    rw [Scope.replay_append]
    exact ih' completes (ih run found)
  | compound inside ih =>
    rw [Point.Completes, exec] at completes
    exact ih completes found
  | assign source run stored ih =>
    rw [Point.Completes, exec, bind_of_ok run, assign_apply] at completes
    split at completes
    · rename_i taken
      cases completes
      obtain ⟨write, same, replayed⟩ := Store.assign_write taken
      obtain rfl := Option.some.inj (stored.symm.trans same)
      rw [Scope.replay_append]
      exact replayed id _ (ih ⟨_, run⟩ found)
    · cases completes
  | routine invokes found' arguments run body ih ih' =>
    obtain ⟨called, values, before, value, callee, evaluated, gives⟩ := invokes.completed completes
    obtain ⟨rfl, -⟩ := ok_unique found' callee
    obtain ⟨rfl, rfl⟩ := ok_unique run evaluated
    rw [Scope.replay_append]
    exact ih' ⟨value, gives⟩ (ih ⟨_, run⟩ found)
  | builtin invokes found' arguments ih =>
    obtain ⟨called, values, before, value, callee, evaluated, gives⟩ := invokes.completed completes
    obtain ⟨rfl, -⟩ := ok_unique found' callee
    rw [call_builtin_store gives]
    exact ih ⟨_, evaluated⟩ found
  | ifThenTaken tested run taken ih ih' =>
    rw [Point.Completes, exec, bind_of_ok run] at completes
    rw [Scope.replay_append]
    exact ih' completes (ih (evalCondition_ok run) found)
  | ifThenSkipped tested run ih =>
    rw [Point.Completes, exec, bind_of_ok run] at completes
    cases completes
    exact ih (evalCondition_ok run) found
  | ifElseTaken tested run taken ih ih' =>
    rw [Point.Completes, exec, bind_of_ok run] at completes
    rw [Scope.replay_append]
    exact ih' completes (ih (evalCondition_ok run) found)
  | ifElseOther tested run taken ih ih' =>
    rw [Point.Completes, exec, bind_of_ok run] at completes
    rw [Scope.replay_append]
    exact ih' completes (ih (evalCondition_ok run) found)
  | loop rounds ih =>
    rw [Point.Completes, exec] at completes
    exact ih completes found
  | lastRound inside run tested last ih ih' =>
    rw [Point.Completes, repeatUntil, bind_of_ok ((bind_of_ok run).trans last)] at completes
    cases completes
    rw [Scope.replay_append]
    exact ih' (evalCondition_ok last) (ih run found)
  | nextRound inside run tested again later ih ih' further =>
    rw [Point.Completes, repeatUntil, bind_of_ok ((bind_of_ok run).trans again)] at completes
    rw [Scope.replay_append, Scope.replay_append]
    exact further completes (ih' (evalCondition_ok again) (ih run found))
  | empty =>
    rw [Point.Completes, exec] at completes
    cases completes
    exact found
  | number | text =>
    obtain ⟨value, run⟩ := completes
    rw [eval] at run
    cases run
    exact found
  | read bound =>
    obtain ⟨value, run⟩ := completes
    rw [eval, readName_apply, bound] at run
    simp only at run
    split at run
    · cases run
      exact found
    · cases run
  | unary inside ih =>
    obtain ⟨value, run⟩ := completes
    rw [eval] at run
    obtain ⟨first, middle, evaluated, run⟩ := ok_of_bind run
    obtain rfl := ofExcept_ok run
    exact ih ⟨first, evaluated⟩ found
  | binary first run second ih ih' | relational first run second ih ih' =>
    obtain ⟨value, whole⟩ := completes
    rw [eval, bind_of_ok run] at whole
    obtain ⟨other, last, evaluated, combined⟩ := ok_of_bind whole
    obtain rfl := ofExcept_ok combined
    rw [Scope.replay_append]
    exact ih' ⟨other, evaluated⟩ (ih ⟨_, run⟩ found)
  | noExprs =>
    obtain ⟨values, run⟩ := completes
    rw [evalAll] at run
    cases run
    exact found
  | exprs first run later ih ih' =>
    obtain ⟨values, whole⟩ := completes
    rw [evalAll, bind_of_ok run] at whole
    obtain ⟨others, last, evaluated, ended⟩ := ok_of_bind whole
    cases ended
    rw [Scope.replay_append]
    exact ih' ⟨others, evaluated⟩ (ih ⟨_, run⟩ found)
  | @enter fuel closure args machine begun log begins inside ih =>
    obtain ⟨value, run⟩ := completes
    obtain ⟨frame, -, declared⟩ := begins.declared
    obtain ⟨own, opened⟩ := declareAll_store declared
    rw [activate_of_begins begins] at run
    split at run
    · rename_i last body
      cases run
      have below : last.store.scope? id = some (scope.replay id log) := by
        refine ih body ?_
        rw [opened]
        exact Store.scope?_push_of_some found
      have above : last.store.scope? machine.store.size =
          some (own.replay machine.store.size log) := by
        refine ih body ?_
        rw [opened]
        exact Store.scope?_push_size
      have lower : id < machine.store.size := Store.lt_size found
      have upper : machine.store.size < last.store.size := Store.lt_size above
      change last.store.pop.scope? id = _
      rw [Store.scope?_pop_of_lt (Nat.lt_of_lt_of_le lower (Nat.le_sub_one_of_lt upper)), below]
    · cases run

end

end MiniPascal
