import MiniPascal.Proofs.Run.Confined

namespace MiniPascal

/-- What a sink has taken it keeps, and takes more behind it. -/
def Sink.Grows (before after : Sink) : Prop := ∃ bytes, after.taken = before.taken ++ bytes

theorem Sink.Grows.refl (sink : Sink) : sink.Grows sink := ⟨.empty, ByteArray.append_empty.symm⟩

theorem Sink.Grows.trans {before middle after : Sink} (first : before.Grows middle)
    (second : middle.Grows after) : before.Grows after := by
  obtain ⟨bytes, taken⟩ := first
  obtain ⟨further, takenLater⟩ := second
  exact ⟨bytes ++ further, by rw [takenLater, taken, ByteArray.append_assoc]⟩

theorem Sink.write_grows (sink : Sink) (bytes : ByteArray) : sink.Grows (sink.write bytes).1 := by
  rw [Sink.write]
  split
  · exact ⟨bytes, rfl⟩
  · split
    · exact ⟨bytes, rfl⟩
    · exact ⟨_, rfl⟩

theorem Sink.writeAll_grows (sink : Sink) (texts : List String) :
    sink.Grows (sink.writeAll texts).1 := by
  induction texts generalizing sink with
  | nil => exact .refl sink
  | cons text rest ih =>
    have first := sink.write_grows text.toUTF8
    rw [Sink.writeAll]
    split
    · rename_i taken written
      rw [written] at first
      exact first.trans (ih taken)
    · rename_i taken written
      rw [written] at first
      exact first

theorem Builtin.run_grows (builtin : Builtin) (args : List Value) (sink : Sink) :
    sink.Grows (builtin.run args sink).1 := by
  have written := sink.writeAll_grows (builtin.output args)
  rw [Builtin.run]
  split
  · rename_i taken all
    rw [all] at written
    exact written
  · rename_i taken part
    rw [part] at written
    exact written

/-- Neither output nor events are ever taken back. -/
structure Machine.Continues (before after : Machine) : Prop where
  written : before.sink.Grows after.sink
  noted : before.events <:+ after.events

theorem Machine.Continues.refl (machine : Machine) : machine.Continues machine :=
  ⟨.refl _, List.suffix_rfl⟩

theorem Machine.Continues.trans {before middle after : Machine} (first : before.Continues middle)
    (second : middle.Continues after) : before.Continues after :=
  ⟨first.written.trans second.written, first.noted.trans second.noted⟩

/-- A way in which one run may fall short of another: the stop with which it ends early, how the sinks
compare as long as both runs do the same, and how the sink of the one that ended early compares to
that of the other later on. -/
structure Shortfall where
  stop : RunStop
  alike : Sink → Sink → Prop
  short : Sink → Sink → Prop
  grows : ∀ {low high later}, short low high → high.Grows later → short low later
  builtin : ∀ (builtin : Builtin) (args : List Value) {low high}, alike low high →
    ((builtin.run args low).2 = (builtin.run args high).2 ∧
        alike (builtin.run args low).1 (builtin.run args high).1) ∨
      ∃ cause, stop = .fault cause ∧ (builtin.run args low).2 = some cause ∧
        short (builtin.run args low).1 (builtin.run args high).1

namespace Shortfall

/-- The machines of two runs that have done the same so far. -/
structure Alike (way : Shortfall) (low high : Machine) : Prop where
  store : low.store = high.store
  sink : way.alike low.sink high.sink
  events : low.events = high.events

/-- The machine of a run that ended early, and a later one of the other run. -/
structure Short (way : Shortfall) (low high : Machine) : Prop where
  sink : way.short low.sink high.sink
  events : low.events <:+ high.events

variable {way : Shortfall} {α β : Type} {low high later : Machine}

theorem Alike.withStore (alike : way.Alike low high) (store : Store) :
    way.Alike { low with store := store } { high with store := store } :=
  ⟨rfl, alike.sink, alike.events⟩

theorem Short.continues (short : way.Short low high) (continues : high.Continues later) :
    way.Short low later :=
  ⟨way.grows short.sink continues.written, short.events.trans continues.noted⟩

/-- The same outcome, in machines that are alike. -/
inductive Agrees (way : Shortfall) :
    EStateM.Result RunStop Machine α → EStateM.Result RunStop Machine α → Prop where
  | ok {result : α} {low high : Machine} (alike : way.Alike low high) :
    Agrees way (.ok result low) (.ok result high)
  | stop {stop : RunStop} {low high : Machine} (alike : way.Alike low high) :
    Agrees way (.error stop low) (.error stop high)

/-- From machines that are alike, one action does the same as another or falls short of it. -/
structure Falls (way : Shortfall) (tight wide : Action α) : Prop where
  continues : ∀ machine : Machine, machine.Continues (wide.final machine)
  compares : ∀ low high, way.Alike low high → way.Agrees (tight low) (wide high) ∨
    ∃ last, tight low = .error way.stop last ∧ way.Short last (wide.final high)

theorem continues_bind {first : Action α} {next : α → Action β}
    (start : ∀ machine : Machine, machine.Continues (first.final machine))
    (rest : ∀ result (machine : Machine), machine.Continues ((next result).final machine))
    (machine : Machine) : machine.Continues ((first >>= next).final machine) := by
  have begun := start machine
  cases run : first machine with
  | error stop after =>
    rw [Action.final_of_error run] at begun
    rw [Action.final_of_error (bind_of_error run)]
    exact begun
  | ok result after =>
    rw [Action.final_of_ok run] at begun
    rw [Action.final_bind run]
    exact begun.trans (rest result after)

/-- In sequence. Where the first part falls short, the other run only adds to what it has written. -/
theorem Falls.bind {tight wide : Action α} {tightNext wideNext : α → Action β}
    (head : way.Falls tight wide) (tail : ∀ result, way.Falls (tightNext result) (wideNext result)) :
    way.Falls (tight >>= tightNext) (wide >>= wideNext) := by
  refine ⟨continues_bind head.continues fun result => (tail result).continues, ?_⟩
  intro low high alike
  cases wideRun : wide high with
  | ok result middle =>
    rw [bind_of_ok wideRun, Action.final_bind wideRun]
    rcases head.compares low high alike with agrees | ⟨last, stopped, short⟩
    · rw [wideRun] at agrees
      generalize tightRun : tight low = outcome at agrees
      cases agrees with
      | ok alike =>
        rw [bind_of_ok tightRun]
        exact (tail result).compares _ _ alike
    · rw [Action.final_of_ok wideRun] at short
      exact .inr ⟨last, bind_of_error stopped, short.continues ((tail result).continues middle)⟩
  | error stop middle =>
    rw [bind_of_error wideRun, Action.final_of_error (bind_of_error wideRun)]
    rcases head.compares low high alike with agrees | ⟨last, stopped, short⟩
    · rw [wideRun] at agrees
      generalize tightRun : tight low = outcome at agrees
      cases agrees with
      | stop alike =>
        rw [bind_of_error tightRun]
        exact .inl (.stop alike)
    · rw [Action.final_of_error wideRun] at short
      exact .inr ⟨last, bind_of_error stopped, short⟩

theorem Falls.pure (result : α) : way.Falls (Pure.pure result) (Pure.pure result) :=
  ⟨fun machine => .refl machine, fun _ _ alike => .inl (.ok alike)⟩

theorem Falls.throw (stop : RunStop) :
    way.Falls (MonadExcept.throw stop : Action α) (MonadExcept.throw stop) :=
  ⟨fun machine => .refl machine, fun _ _ alike => .inl (.stop alike)⟩

theorem Falls.ofExcept (outcome : Except Fault α) :
    way.Falls (Action.ofExcept outcome) (Action.ofExcept outcome) := by
  cases outcome with
  | ok result => exact .pure result
  | error cause => exact .throw _

theorem Falls.note (event : RunEvent) : way.Falls (Action.note event) (Action.note event) := by
  refine ⟨fun machine => ⟨.refl _, List.suffix_cons _ _⟩, fun low high alike => .inl (.ok ?_)⟩
  exact ⟨alike.store, alike.sink, congrArg (event :: ·) alike.events⟩

/-- Actions look at nothing of a machine but its scopes. -/
theorem Falls.get {tight wide : Machine → Action α}
    (blind : ∀ store sink events other others,
      tight ⟨store, sink, events⟩ = tight ⟨store, other, others⟩)
    (falls : ∀ machine, way.Falls (tight machine) (wide machine)) :
    way.Falls (MonadState.get >>= tight) (MonadState.get >>= wide) := by
  refine ⟨fun machine => (falls machine).continues machine, fun low high alike => ?_⟩
  have same : tight low = tight high := by
    obtain ⟨store, sink, events⟩ := low
    obtain ⟨rfl, -, -⟩ := alike
    exact blind high.store sink events high.sink high.events
  rw [Action.get_bind, same]
  exact (falls high).compares low high alike

theorem Falls.updateStore (change : ScopeId → Store → Except Fault Store) :
    way.Falls (Action.updateStore change) (Action.updateStore change) := by
  constructor
  · intro machine
    rw [Action.final, Action.updateStore_eq]
    cases change machine.current machine.store with
    | ok store => exact ⟨.refl _, List.suffix_rfl⟩
    | error cause => exact .refl machine
  · intro low high alike
    have current : low.current = high.current := congrArg (·.size - 1) alike.store
    rw [Action.updateStore_eq, Action.updateStore_eq, current, alike.store]
    cases change high.current high.store with
    | ok store => exact .inl (.ok (alike.withStore store))
    | error cause => exact .inl (.stop alike)

theorem Falls.runBuiltin (builtin : Builtin) (args : List Value) :
    way.Falls (Action.runBuiltin builtin args) (Action.runBuiltin builtin args) := by
  have ends (machine : Machine) : ((Action.runBuiltin builtin args).final machine) =
      { machine with sink := (builtin.run args machine.sink).1 } := by
    rw [Action.final, Action.runBuiltin]
    rcases builtin.run args machine.sink with ⟨sink, _ | cause⟩ <;> rfl
  constructor
  · intro machine
    rw [ends]
    exact ⟨builtin.run_grows args machine.sink, List.suffix_rfl⟩
  · intro low high alike
    rw [ends, Action.runBuiltin, Action.runBuiltin]
    rcases way.builtin builtin args alike.sink with ⟨same, sinks⟩ | ⟨cause, stop, closed, short⟩
    · rcases lowRun : builtin.run args low.sink with ⟨lowSink, outcome⟩
      rcases highRun : builtin.run args high.sink with ⟨highSink, highOutcome⟩
      rw [lowRun, highRun] at same sinks
      obtain rfl : outcome = highOutcome := same
      cases outcome with
      | none => exact .inl (.ok ⟨alike.store, sinks, alike.events⟩)
      | some cause => exact .inl (.stop ⟨alike.store, sinks, alike.events⟩)
    · rcases lowRun : builtin.run args low.sink with ⟨lowSink, outcome⟩
      rw [lowRun] at closed short
      obtain rfl : outcome = some cause := closed
      refine .inr ⟨{ low with sink := lowSink }, by rw [stop], short, ?_⟩
      exact alike.events ▸ List.suffix_rfl

theorem Falls.inScope (scope : Scope) {tight wide : Action α} (falls : way.Falls tight wide) :
    way.Falls (Action.inScope scope tight) (Action.inScope scope wide) := by
  have ends (machine : Machine) : (Action.inScope scope wide).final machine =
      let last := wide.final { machine with store := machine.store.push scope }
      { last with store := last.store.pop } := by
    rw [Action.final, Action.inScope, Action.final]
    cases wide { machine with store := machine.store.push scope } with
    | ok result after => rfl
    | error stop after => rfl
  constructor
  · intro machine
    have inside := falls.continues { machine with store := machine.store.push scope }
    rw [ends]
    exact ⟨inside.written, inside.noted⟩
  · intro low high alike
    have pushed := alike.withStore (high.store.push scope)
    rw [ends, Action.inScope, Action.inScope, alike.store]
    rcases falls.compares _ _ pushed with agrees | ⟨last, stopped, short⟩
    · generalize tight _ = tightRun at agrees ⊢
      generalize wide _ = wideRun at agrees ⊢
      cases agrees with
      | ok alike => exact .inl (.ok ⟨congrArg Store.pop alike.store, alike.sink, alike.events⟩)
      | stop alike => exact .inl (.stop ⟨congrArg Store.pop alike.store, alike.sink, alike.events⟩)
    · rw [stopped]
      exact .inr ⟨_, rfl, short.sink, short.events⟩

theorem final_afresh (body : Action α) (machine : Machine) :
    (Action.afresh body).final machine =
      { body.final { machine with store := .initial } with store := .empty } := by
  rw [Action.final, Action.afresh, Action.final]
  cases body { machine with store := .initial } with
  | ok result after => rfl
  | error stop after => rfl

theorem Falls.afresh {tight wide : Action α} (falls : way.Falls tight wide) :
    way.Falls (Action.afresh tight) (Action.afresh wide) := by
  constructor
  · intro machine
    have inside := falls.continues { machine with store := .initial }
    rw [final_afresh]
    exact ⟨inside.written, inside.noted⟩
  · intro low high alike
    rw [final_afresh, Action.afresh, Action.afresh]
    rcases falls.compares _ _ (alike.withStore .initial) with agrees | ⟨last, stopped, short⟩
    · generalize tight _ = tightRun at agrees ⊢
      generalize wide _ = wideRun at agrees ⊢
      cases agrees with
      | ok alike => exact .inl (.ok (alike.withStore .empty))
      | stop alike => exact .inl (.stop (alike.withStore .empty))
    · rw [stopped]
      exact .inr ⟨_, rfl, short.sink, short.events⟩

/-- A bound of the first run that is no wider than that of the second. Where it is narrower, the first
run may end there. -/
def Within (way : Shortfall) (stop : RunStop) (low high : Nat) : Prop :=
  low = high ∨
    low ≤ high ∧ way.stop = stop ∧ ∀ {sink other}, way.alike sink other → way.short sink other

theorem Within.pred {stop : RunStop} {low high : Nat} (within : way.Within stop (low + 1) high) :
    ∃ rest, high = rest + 1 ∧ way.Within stop low rest := by
  rcases within with rfl | ⟨le, early⟩
  · exact ⟨low, rfl, .inl rfl⟩
  · exact ⟨high - 1, by omega, .inr ⟨by omega, early⟩⟩

/-- Runs that differ in a bound only: they write the same until the narrower bound is reached. -/
def ofBound (stop : RunStop) : Shortfall where
  stop := stop
  alike := Eq
  short := Sink.Grows
  grows := Sink.Grows.trans
  builtin := by
    rintro builtin args _ _ rfl
    exact .inl ⟨rfl, rfl⟩

/-- Where its bound is reached, a run may end early, whatever the other does. -/
theorem Falls.early {stop : RunStop} {wide : Action α} (same : way.stop = stop)
    (short : ∀ {sink other}, way.alike sink other → way.short sink other)
    (continues : ∀ machine : Machine, machine.Continues (wide.final machine)) :
    way.Falls (MonadExcept.throw stop) wide := by
  refine ⟨continues, fun low high alike => .inr ⟨low, by rw [same]; rfl, ?_⟩⟩
  have begun : way.Short low high := ⟨short alike.sink, alike.events ▸ List.suffix_rfl⟩
  exact begun.continues (continues high)

theorem Falls.limit {tight wide : Action α} {limit wideLimit : Nat} (depth : Nat)
    (limits : way.Within (.fault (.recursionLimit limit)) limit wideLimit)
    (falls : way.Falls tight wide) :
    way.Falls (if limit ≤ depth then Action.fault (.recursionLimit limit) else tight)
      (if wideLimit ≤ depth then Action.fault (.recursionLimit wideLimit) else wide) := by
  rcases limits with rfl | ⟨le, stop, short⟩
  · split
    · exact .throw _
    · exact falls
  by_cases deep : limit ≤ depth
  · rw [if_pos deep]
    refine .early stop short ?_
    split
    · exact fun machine => .refl machine
    · exact falls.continues
  · have shallow : ¬ wideLimit ≤ depth := by omega
    rw [if_neg deep, if_neg shallow]
    exact falls

end Shortfall

namespace Action

variable {way : Shortfall} {tight wide : Activate} {α : Type}

/-- Activations of which the first do the same as the second or fall short of them. -/
def ActivatesFall (way : Shortfall) (tight wide : Activate) : Prop :=
  ∀ closure args, way.Falls (tight closure args) (wide closure args)

theorem callee_falls (name : String) (actual : Nat) :
    way.Falls (callee name actual) (callee name actual) := by
  refine .get (fun _ _ _ _ _ => rfl) fun machine => ?_
  split
  · simp only
    split
    · exact .pure _
    · exact .throw _
  · split
    · split
      · exact .pure _
      · exact .throw _
    · exact .throw _

theorem call_falls (falls : ActivatesFall way tight wide) (called : Callee) (args : List Value) :
    way.Falls (call tight called args) (call wide called args) := by
  cases called with
  | routine closure => exact falls closure args
  | builtin builtin => exact (Shortfall.Falls.runBuiltin builtin args).bind fun _ => .pure none

theorem result_falls (name : String) (value : Option Value) :
    way.Falls (result name value) (result name value) := by
  cases value with
  | none => exact .throw _
  | some value => exact .pure value

theorem calling_falls (falls : ActivatesFall way tight wide) (name : String) (actual : Nat)
    {arguments wideArguments : Action (List Value)} {next : Option Value → Action α}
    (evaluated : way.Falls arguments wideArguments)
    (rest : ∀ value, way.Falls (next value) (next value)) :
    way.Falls
      (do
        let called ← callee name actual
        let values ← arguments
        next (← call tight called values))
      (do
        let called ← callee name actual
        let values ← wideArguments
        next (← call wide called values)) :=
  (callee_falls name actual).bind fun called => evaluated.bind fun values =>
    (call_falls falls called values).bind rest

theorem readName_falls (falls : ActivatesFall way tight wide) (name : String) :
    way.Falls (readName tight name) (readName wide name) := by
  refine .get (fun _ _ _ _ _ => rfl) fun machine => ?_
  split
  · split
    · exact (callee_falls name 0).bind fun called =>
        (call_falls falls called []).bind fun value => result_falls name value
    · exact .throw _
  · exact .ofExcept _

mutual

theorem eval_falls (falls : ActivatesFall way tight wide) (expr : Expr) :
    way.Falls (eval tight expr) (eval wide expr) := by
  cases expr with
  | number literal span =>
    rw [eval, eval]
    exact .pure _
  | text value span =>
    rw [eval, eval]
    exact .pure _
  | var name span =>
    rw [eval, eval]
    exact readName_falls falls name
  | unary op operand span =>
    rw [eval, eval]
    exact (eval_falls falls operand).bind fun value => .ofExcept _
  | binary left op right span =>
    rw [eval, eval]
    exact (eval_falls falls left).bind fun first =>
      (eval_falls falls right).bind fun second => .ofExcept _
  | relational left op right span =>
    rw [eval, eval]
    exact (eval_falls falls left).bind fun first =>
      (eval_falls falls right).bind fun second => .ofExcept _
  | call name args span =>
    rw [eval, eval]
    exact calling_falls falls _ _ (evalAll_falls falls args) fun value => result_falls _ value

theorem evalAll_falls (falls : ActivatesFall way tight wide) (exprs : List Expr) :
    way.Falls (evalAll tight exprs) (evalAll wide exprs) := by
  cases exprs with
  | nil =>
    rw [evalAll, evalAll]
    exact .pure _
  | cons first rest =>
    rw [evalAll, evalAll]
    exact (eval_falls falls first).bind fun value =>
      (evalAll_falls falls rest).bind fun values => .pure _

end

theorem evalCondition_falls (falls : ActivatesFall way tight wide) (cond : Expr) :
    way.Falls (evalCondition tight cond) (evalCondition wide cond) := by
  refine (eval_falls falls cond).bind fun value => ?_
  split
  · exact .pure _
  · exact .throw _

theorem repeatUntil_continues {round : Action Bool}
    (continues : ∀ machine : Machine, machine.Continues (round.final machine)) (rounds : Nat) :
    ∀ machine : Machine, machine.Continues ((repeatUntil round rounds).final machine) := by
  induction rounds with
  | zero => exact fun machine => .refl machine
  | succ rounds ih =>
    refine Shortfall.continues_bind continues fun last => ?_
    split
    · exact fun machine => .refl machine
    · exact ih

theorem repeatUntil_falls {round wideRound : Action Bool} (falls : way.Falls round wideRound)
    {low high : Nat} (within : way.Within .outOfFuel low high) :
    way.Falls (repeatUntil round low) (repeatUntil wideRound high) := by
  induction low generalizing high with
  | zero =>
    rcases within with rfl | ⟨-, same, short⟩
    · exact .throw _
    · exact .early same short (repeatUntil_continues falls.continues high)
  | succ low ih =>
    obtain ⟨high, rfl, inner⟩ := within.pred
    refine falls.bind fun last => ?_
    split
    · exact .pure _
    · exact ih inner

mutual

theorem exec_falls (falls : ActivatesFall way tight wide) {low high : Nat}
    (within : way.Within .outOfFuel low high) (stmt : Stmt) :
    way.Falls (exec tight low stmt) (exec wide high stmt) := by
  cases stmt with
  | compound body span =>
    rw [exec, exec]
    exact execAll_falls falls within body
  | assign target value span =>
    rw [exec, exec]
    exact (eval_falls falls value).bind fun value => .updateStore _
  | call name args span =>
    rw [exec, exec]
    exact calling_falls falls _ _ (evalAll_falls falls args) fun _ => .pure _
  | ifThen cond branch span =>
    rw [exec, exec]
    refine (evalCondition_falls falls cond).bind fun truth => ?_
    split
    · exact exec_falls falls within branch
    · exact .pure _
  | ifElse cond branch otherwise span =>
    rw [exec, exec]
    refine (evalCondition_falls falls cond).bind fun truth => ?_
    split
    · exact exec_falls falls within branch
    · exact exec_falls falls within otherwise
  | repeatUntil body cond span =>
    rw [exec, exec]
    refine repeatUntil_falls ?_ within
    exact (execAll_falls falls within body).bind fun _ => evalCondition_falls falls cond
  | empty span =>
    rw [exec, exec]
    exact .pure _

theorem execAll_falls (falls : ActivatesFall way tight wide) {low high : Nat}
    (within : way.Within .outOfFuel low high) (body : List Stmt) :
    way.Falls (execAll tight low body) (execAll wide high body) := by
  cases body with
  | nil =>
    rw [execAll, execAll]
    exact .pure _
  | cons first rest =>
    rw [execAll, execAll]
    exact (exec_falls falls within first).bind fun _ => execAll_falls falls within rest

end

theorem declare_falls (decl : Decl) : way.Falls (declare decl) (declare decl) := by
  cases decl with
  | var name type =>
    rw [declare]
    exact .updateStore _
  | routine heading declarations body =>
    rw [declare]
    exact .get (fun _ _ _ _ _ => rfl) fun machine =>
      (Shortfall.Falls.note _).bind fun _ => .updateStore _

theorem declareAll_falls (declarations : List Decl) :
    way.Falls (declareAll declarations) (declareAll declarations) := by
  induction declarations with
  | nil => exact .pure _
  | cons first rest ih => exact (declare_falls first).bind fun _ => ih

theorem execBlock_falls (falls : ActivatesFall way tight wide) {low high : Nat}
    (within : way.Within .outOfFuel low high) (block : Block) :
    way.Falls (execBlock tight low block) (execBlock wide high block) :=
  (declareAll_falls _).bind fun _ => execAll_falls falls within block.body

theorem activation_falls (falls : ActivatesFall way tight wide) {low high : Nat}
    (within : way.Within .outOfFuel low high) (routine : Routine) :
    way.Falls (activation tight low routine) (activation wide high routine) := by
  refine .get (fun _ _ _ _ _ => rfl) fun machine => ?_
  refine (Shortfall.Falls.note _).bind fun _ => (execBlock_falls falls within _).bind fun _ => ?_
  exact .get (fun _ _ _ _ _ => rfl) fun machine => .pure _

variable {config wideConfig : Config} {fuel wideFuel : Nat}

theorem activate_succ_falls
    (falls : ActivatesFall way (activate config fuel) (activate wideConfig wideFuel))
    (within : way.Within .outOfFuel fuel wideFuel)
    (limits : way.Within (.fault (.recursionLimit config.maxCallDepth)) config.maxCallDepth
      wideConfig.maxCallDepth) :
    ActivatesFall way (activate config (fuel + 1)) (activate wideConfig (wideFuel + 1)) := by
  intro closure args
  rw [activate, activate]
  refine .get (fun _ _ _ _ _ => rfl) fun machine => .limit machine.callDepth limits ?_
  split
  · exact .throw _
  · refine (Shortfall.Falls.ofExcept _).bind fun frame => ?_
    refine (Shortfall.Falls.inScope frame (activation_falls falls within _)).bind fun value => ?_
    exact (Shortfall.Falls.note _).bind fun _ => .pure value

theorem activate_falls_level
    (limits : way.Within (.fault (.recursionLimit config.maxCallDepth)) config.maxCallDepth
      wideConfig.maxCallDepth) (fuel : Nat) :
    ActivatesFall way (activate config fuel) (activate wideConfig fuel) := by
  induction fuel with
  | zero => exact fun closure args => .throw _
  | succ fuel ih => exact activate_succ_falls ih (.inl rfl) limits

theorem activate_continues (config : Config) (fuel : Nat) (closure : Closure) (args : List Value)
    (machine : Machine) : machine.Continues ((activate config fuel closure args).final machine) := by
  have level : ActivatesFall (.ofBound .outOfFuel) (activate config fuel) (activate config fuel) :=
    activate_falls_level (.inl rfl) fuel
  exact (level closure args).continues machine

theorem activate_falls (within : way.Within .outOfFuel fuel wideFuel)
    (limits : way.Within (.fault (.recursionLimit config.maxCallDepth)) config.maxCallDepth
      wideConfig.maxCallDepth) :
    ActivatesFall way (activate config fuel) (activate wideConfig wideFuel) := by
  induction fuel generalizing wideFuel with
  | zero =>
    intro closure args
    rcases within with rfl | ⟨-, same, short⟩
    · exact .throw _
    · exact .early same short (activate_continues wideConfig wideFuel closure args)
  | succ fuel ih =>
    obtain ⟨wideFuel, rfl, inner⟩ := within.pred
    exact activate_succ_falls (ih inner) inner limits

/-- A run under narrower bounds does the same as one under wider bounds, or falls short of it. -/
theorem run_falls (within : way.Within .outOfFuel fuel wideFuel)
    (limits : way.Within (.fault (.recursionLimit config.maxCallDepth)) config.maxCallDepth
      wideConfig.maxCallDepth) (program : Program) :
    way.Falls (run config fuel program) (run wideConfig wideFuel program) := by
  refine (Shortfall.Falls.note _).bind fun _ => ?_
  split
  · exact .throw _
  · refine .afresh ?_
    refine (execBlock_falls (activate_falls within limits) within program.block).bind fun _ => ?_
    refine .get (fun _ _ _ _ _ => rfl) fun machine => ?_
    exact (Shortfall.Falls.note _).bind fun _ => .pure _

end Action

end MiniPascal
