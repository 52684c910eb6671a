import MiniPascal.Proofs.Run.Endings
import MiniPascal.Proofs.Run.Visited

namespace MiniPascal

open MiniPascal.Action

section

variable {α β : Type} {config : Config} {program : Program} {fuel rounds : Nat} {sink : Sink}
  {point next : Point} {machine after : Machine}

theorem Machine.Continues.of_ok {action : Action α} {result : α}
    (continues : machine.Continues (action.final machine))
    (run : action machine = .ok result after) : machine.Continues after := by
  rw [final_of_ok run] at continues
  exact continues

/-- What the first part of a sequence leaves, the whole goes on from, also where the first part
stops it. -/
theorem Action.final_bind_continues {first : Action α} {rest : α → Action β}
    (continues : ∀ result (machine : Machine), machine.Continues ((rest result).final machine))
    (machine : Machine) : (first.final machine).Continues ((first >>= rest).final machine) := by
  cases run : first machine with
  | error stop last =>
    rw [final_of_error run, final_of_error (bind_of_error run)]
    exact .refl last
  | ok result last =>
    rw [final_of_ok run, final_bind run]
    exact continues result last

/-- The same activations on both sides: what is known of two runs then speaks of one. -/
theorem Action.activates_alike (config : Config) (fuel : Nat) :
    ActivatesFall (.ofBound .outOfFuel) (activate config fuel) (activate config fuel) :=
  activate_falls_level (.inl rfl) fuel

theorem Action.eval_continues (expr : Expr) (machine : Machine) :
    machine.Continues ((eval (activate config fuel) expr).final machine) :=
  (eval_falls (activates_alike config fuel) expr).continues machine

theorem Action.evalAll_continues (exprs : List Expr) (machine : Machine) :
    machine.Continues ((evalAll (activate config fuel) exprs).final machine) :=
  (evalAll_falls (activates_alike config fuel) exprs).continues machine

theorem Action.evalCondition_continues (cond : Expr) (machine : Machine) :
    machine.Continues ((evalCondition (activate config fuel) cond).final machine) :=
  (evalCondition_falls (activates_alike config fuel) cond).continues machine

theorem Action.exec_continues (stmt : Stmt) (machine : Machine) :
    machine.Continues ((exec (activate config fuel) rounds stmt).final machine) :=
  (exec_falls (activates_alike config fuel) (.inl rfl) stmt).continues machine

theorem Action.execAll_continues (body : List Stmt) (machine : Machine) :
    machine.Continues ((execAll (activate config fuel) rounds body).final machine) :=
  (execAll_falls (activates_alike config fuel) (.inl rfl) body).continues machine

theorem Action.declareAll_continues (declarations : List Decl) (machine : Machine) :
    machine.Continues ((declareAll declarations).final machine) :=
  (declareAll_falls declarations : (Shortfall.ofBound .outOfFuel).Falls _ _).continues machine

theorem Action.pure_continues (result : α) (machine : Machine) :
    machine.Continues (Action.final (pure result) machine) := .refl machine

theorem Action.ofExcept_continues (outcome : Except Fault α) (machine : Machine) :
    machine.Continues ((ofExcept outcome).final machine) :=
  (Shortfall.Falls.ofExcept outcome : (Shortfall.ofBound .outOfFuel).Falls _ _).continues machine

theorem Action.assign_continues (name : String) (value : Value) (machine : Machine) :
    machine.Continues ((assign name value).final machine) :=
  (Shortfall.Falls.updateStore _ : (Shortfall.ofBound .outOfFuel).Falls _ _).continues machine

theorem Action.call_continues (called : Callee) (args : List Value) (machine : Machine) :
    machine.Continues ((call (activate config fuel) called args).final machine) :=
  (call_falls (activates_alike config fuel) called args).continues machine

theorem Action.round_continues (body : List Stmt) (cond : Expr) (machine : Machine) :
    machine.Continues (Action.final (do
      execAll (activate config fuel) rounds body
      evalCondition (activate config fuel) cond) machine) :=
  Shortfall.continues_bind (execAll_continues body) (fun _ => evalCondition_continues cond) machine

/-- However the task of a point ends, what was written and noted before it stays. -/
theorem Point.final_continues (point : Point) : point.machine.Continues (point.final config) := by
  obtain ⟨fuel, task, machine⟩ := point
  cases task with
  | stmts body => exact execAll_continues body machine
  | stmt code => exact exec_continues code machine
  | rounds body cond left =>
    exact repeatUntil_continues (round_continues body cond) left machine
  | expr code => exact eval_continues code machine
  | exprs codes => exact evalAll_continues codes machine
  | enter closure args => exact activate_continues config fuel closure args machine

theorem Begins.continues {closure : Closure} {args : List Value}
    (begins : Begins config closure args machine after) : machine.Continues after := by
  obtain ⟨frame, -, declared⟩ := begins.declared
  have made := (declareAll_continues closure.routine.block.declarations
    ⟨machine.store.push frame, machine.sink,
      .enter closure.routine.heading.kind closure.name machine.store.size :: machine.events⟩).of_ok
    declared
  exact ⟨made.written, (List.suffix_cons _ _).trans made.noted⟩

theorem Step.continues (step : Step config point next) :
    point.machine.Continues next.machine := by
  cases step with
  | first | compound | assigned | ifThenCond | ifElseCond | loop | roundBody | operand | left
  | comparedLeft | firstExpr => exact .refl _
  | rest run => exact (exec_continues _ _).of_ok run
  | stmtArgs found | exprArgs found | nameCall unbound found =>
    obtain ⟨rfl, -⟩ := callee_ok found
    exact .refl _
  | stmtCall found run | exprCall found run =>
    obtain ⟨rfl, -⟩ := callee_ok found
    exact (evalAll_continues _ _).of_ok run
  | ifThenBranch run | ifElseBranch run | ifElseOtherwise run =>
    exact (evalCondition_continues _ _).of_ok run
  | roundCond run => exact (execAll_continues _ _).of_ok run
  | nextRound run again =>
    exact ((execAll_continues _ _).of_ok run).trans ((evalCondition_continues _ _).of_ok again)
  | right run | comparedRight run | restExprs run => exact (eval_continues _ _).of_ok run
  | enter begins => exact begins.continues

/-- What is done with the value of a call. -/
theorem Action.calling_continues (called : Callee) {rest : Option Value → Action α}
    (continues : ∀ value (machine : Machine), machine.Continues ((rest value).final machine))
    (values : List Value) (machine : Machine) :
    machine.Continues (Action.final (do
      rest (← call (activate config fuel) called values)) machine) :=
  Shortfall.continues_bind (call_continues called values) continues machine

theorem Action.result_continues (name : String) (value : Option Value) (machine : Machine) :
    machine.Continues ((result name value).final machine) :=
  (result_falls name value : (Shortfall.ofBound .outOfFuel).Falls _ _).continues machine

theorem Action.test_continues (value : Value) (machine : Machine) :
    machine.Continues (Action.final (match value.asBool? with
      | some truth => pure truth
      | none => fault (.typeMismatch (.condition value.kind))) machine) := by
  split
  · exact pure_continues _ machine
  · exact .refl machine

/-- A task that begins with a condition goes on from where its expression ends. -/
theorem Action.condition_continues {cond : Expr} {rest : Bool → Action α}
    (continues : ∀ truth (machine : Machine), machine.Continues ((rest truth).final machine))
    (machine : Machine) :
    ((eval (activate config fuel) cond).final machine).Continues
      ((evalCondition (activate config fuel) cond >>= rest).final machine) :=
  (final_bind_continues test_continues machine).trans (final_bind_continues continues machine)

theorem Action.nextRound_continues (body : List Stmt) (cond : Expr) (left : Nat) (last : Bool)
    (machine : Machine) :
    machine.Continues (Action.final (if last then pure () else repeatUntil (do
      execAll (activate config fuel) fuel body
      evalCondition (activate config fuel) cond) left) machine) := by
  split
  · exact pure_continues () machine
  · exact repeatUntil_continues (round_continues body cond) left machine

theorem Action.final_readName {enter : Activate} {name : String} {closure : Closure}
    (unbound : machine.store.binding? machine.current name = none)
    (found : callee name 0 machine = .ok (.routine closure) after) :
    (readName enter name).final machine =
      Action.final (do result name (← enter closure [])) after := by
  have visible := ((callee_ok found).2 closure rfl).1
  rw [Action.final, readName_apply, unbound, visible]
  exact final_bind found

/-- An activation ends where its block ends, but for its scope and an event. -/
theorem Action.activate_final_continues (fuel : Nat) {closure : Closure} {args : List Value}
    {frame : Scope} (room : machine.callDepth < config.maxCallDepth)
    (home : (machine.store.scope? closure.home).isSome)
    (framed : closure.routine.heading.frame (machine.store.inner closure.name closure.home) args =
      .ok frame) :
    ((execBlock (activate config fuel) fuel closure.routine.block).final
      ⟨machine.store.push frame, machine.sink,
        .enter closure.routine.heading.kind closure.name machine.store.size :: machine.events⟩).Continues
      ((activate config (fuel + 1) closure args).final machine) := by
  obtain ⟨scope, atHome⟩ := Option.isSome_iff_exists.mp home
  have depth : Machine.callDepth { machine with store := machine.store.push frame } =
      machine.store.size := by
    rw [Machine.callDepth, Store.size_push, Nat.add_sub_cancel]
  have block := final_activation (activate config fuel) fuel closure.routine
    { machine with store := machine.store.push frame }
  rw [depth, Action.final] at block
  rw [Closure.name, ← block, Action.final, activate_succ, if_neg (Nat.not_le.mpr room), atHome]
  simp only [framed]
  cases activation (activate config fuel) fuel closure.routine _ with
  | ok value last => exact ⟨.refl _, List.suffix_cons _ _⟩
  | error stop last => exact ⟨.refl _, List.suffix_rfl⟩

theorem Begins.final_continues {closure : Closure} {args : List Value}
    (begins : Begins config closure args machine after) :
    ((execAll (activate config fuel) fuel closure.routine.block.body).final after).Continues
      ((activate config (fuel + 1) closure args).final machine) := by
  obtain ⟨frame, framed, declared⟩ := begins.declared
  have block := activate_final_continues fuel begins.room begins.home framed
  rw [execBlock, final_bind declared] at block
  exact block

/-- A task ends where its part ends, or goes on from there. -/
theorem Step.final_continues (step : Step config point next) :
    (next.final config).Continues (point.final config) := by
  cases step with
  | first =>
    rw [Point.final, Point.final, execAll]
    exact final_bind_continues (fun _ => execAll_continues _) _
  | rest run =>
    rw [Point.final, Point.final, execAll, final_bind run]
    exact .refl _
  | compound =>
    rw [Point.final, Point.final, exec]
    exact .refl _
  | assigned =>
    rw [Point.final, Point.final, exec]
    exact final_bind_continues (fun _ => assign_continues _ _) _
  | stmtArgs found =>
    rw [Point.final, Point.final, exec, final_bind found]
    exact final_bind_continues (calling_continues _ fun _ => pure_continues _) _
  | stmtCall found run =>
    rw [Point.final, Point.final, exec, final_bind found, final_bind run]
    exact final_bind_continues (fun _ => pure_continues _) _
  | ifThenCond =>
    rw [Point.final, Point.final, exec]
    refine condition_continues (fun truth machine => ?_) _
    split
    · exact exec_continues _ machine
    · exact pure_continues () machine
  | ifThenBranch run =>
    rw [Point.final, Point.final, exec, final_bind run]
    exact .refl _
  | ifElseCond =>
    rw [Point.final, Point.final, exec]
    refine condition_continues (fun truth machine => ?_) _
    split <;> exact exec_continues _ machine
  | ifElseBranch run =>
    rw [Point.final, Point.final, exec, final_bind run]
    exact .refl _
  | ifElseOtherwise run =>
    rw [Point.final, Point.final, exec, final_bind run]
    exact .refl _
  | loop =>
    rw [Point.final, Point.final, exec]
    exact .refl _
  | roundBody =>
    rw [Point.final, Point.final, repeatUntil]
    exact (final_bind_continues (fun _ => evalCondition_continues _) _).trans
      (final_bind_continues (nextRound_continues _ _ _) _)
  | roundCond run =>
    rw [Point.final, Point.final, repeatUntil, bind_assoc, final_bind run]
    exact condition_continues (nextRound_continues _ _ _) _
  | nextRound run again =>
    rw [Point.final, Point.final, repeatUntil, bind_assoc, final_bind run, final_bind again]
    exact .refl _
  | nameCall unbound found =>
    rw [Point.final, Point.final, eval, final_readName unbound found]
    exact final_bind_continues (result_continues _) _
  | operand =>
    rw [Point.final, Point.final, eval]
    exact final_bind_continues (fun _ => ofExcept_continues _) _
  | left | comparedLeft =>
    rw [Point.final, Point.final, eval]
    refine final_bind_continues (fun _ => ?_) _
    exact Shortfall.continues_bind (eval_continues _) fun _ => ofExcept_continues _
  | right run | comparedRight run =>
    rw [Point.final, Point.final, eval, final_bind run]
    exact final_bind_continues (fun _ => ofExcept_continues _) _
  | exprArgs found =>
    rw [Point.final, Point.final, eval, final_bind found]
    exact final_bind_continues (calling_continues _ (result_continues _)) _
  | exprCall found run =>
    rw [Point.final, Point.final, eval, final_bind found, final_bind run]
    exact final_bind_continues (result_continues _) _
  | firstExpr =>
    rw [Point.final, Point.final, evalAll]
    refine final_bind_continues (fun _ => ?_) _
    exact Shortfall.continues_bind (evalAll_continues _) fun _ => pure_continues _
  | restExprs run =>
    rw [Point.final, Point.final, evalAll, final_bind run]
    exact final_bind_continues (fun _ => pure_continues _) _
  | enter begins => exact begins.final_continues

theorem Action.declareAll_append (made rest : List Decl) :
    declareAll (made ++ rest) = (do declareAll made; declareAll rest) := by
  induction made with
  | nil => rfl
  | cons first made ih => simp only [List.cons_append, declareAll, ih, bind_assoc]

theorem Action.made_continues {made rest : List Decl} {block : Block}
    (front : block.declarations = made ++ rest) (machine : Machine) :
    ((declareAll made).final machine).Continues
      ((execBlock (activate config fuel) fuel block).final machine) := by
  simp only [execBlock, front, declareAll_append, bind_assoc]
  exact final_bind_continues (fun _ => Shortfall.continues_bind (declareAll_continues _) fun _ =>
    execAll_continues _) machine

/-- A run ends where its block ends, but for its scopes. -/
theorem Action.main_continues (distinct : program.block.duplicate? = none) :
    ((main config fuel program).final ⟨.initial, sink, [.runStart program.name.name]⟩).Continues
      ((run config fuel program).final ⟨.empty, sink, []⟩) := by
  rw [Action.run, final_bind (note_apply _ _), distinct, Shortfall.final_afresh]
  exact ⟨.refl _, List.suffix_rfl⟩

/-- What a run has written and noted at one of its points, it has when it ends. -/
theorem Reached.continues (reached : Reached config program fuel sink point) :
    Machine.Continues ⟨.initial, sink, []⟩ point.machine ∧
      (point.final config).Continues ((run config fuel program).final ⟨.empty, sink, []⟩) := by
  induction reached with
  | @start machine distinct declared =>
    have made := (declareAll_continues program.block.declarations _).of_ok declared
    refine ⟨⟨made.written, List.nil_suffix⟩, ?_⟩
    refine .trans ?_ (main_continues distinct)
    rw [Point.final, Action.main]
    simp only [execBlock, bind_assoc]
    rw [final_bind declared]
    exact final_bind_continues (fun _ last => ⟨.refl _, List.suffix_cons _ _⟩) machine
  | step reached step ih =>
    exact ⟨ih.1.trans step.continues, step.final_continues.trans ih.2⟩

theorem Visited.continues (visited : Visited config program fuel sink machine) :
    Machine.Continues ⟨.initial, sink, []⟩ machine ∧
      machine.Continues ((run config fuel program).final ⟨.empty, sink, []⟩) := by
  cases visited with
  | @opening made rest distinct front =>
    have begun := declareAll_continues made ⟨.initial, sink, [.runStart program.name.name]⟩
    refine ⟨⟨begun.written, List.nil_suffix⟩, ?_⟩
    refine .trans ?_ (main_continues distinct)
    exact (made_continues front _).trans
      (final_bind_continues (fun _ last => ⟨.refl _, List.suffix_cons _ _⟩) _)
  | @before point reached =>
    exact ⟨reached.continues.1, point.final_continues.trans reached.continues.2⟩
  | @after point reached =>
    exact ⟨reached.continues.1.trans point.final_continues, reached.continues.2⟩
  | @declaring depth closure args caller frame made rest reached room home framed front =>
    have begun := declareAll_continues made ⟨caller.store.push frame, caller.sink,
      .enter closure.routine.heading.kind closure.name caller.store.size :: caller.events⟩
    have entered : caller.Continues _ := ⟨begun.written, (List.suffix_cons _ _).trans begun.noted⟩
    refine ⟨reached.continues.1.trans entered, ?_⟩
    exact ((made_continues front _).trans (activate_final_continues depth room home framed)).trans
      reached.continues.2

end

end MiniPascal
