import MiniPascal.Proofs.Run.Lexical

namespace MiniPascal

open MiniPascal.Action

/-- The machine in which the task of a point ends, with a result or without. -/
def Point.final (config : Config) : Point → Machine
  | ⟨fuel, .stmts body, machine⟩ => (execAll (activate config fuel) fuel body).final machine
  | ⟨fuel, .stmt code, machine⟩ => (exec (activate config fuel) fuel code).final machine
  | ⟨fuel, .rounds body cond left, machine⟩ =>
    (repeatUntil (do
      execAll (activate config fuel) fuel body
      evalCondition (activate config fuel) cond) left).final machine
  | ⟨fuel, .expr code, machine⟩ => (eval (activate config fuel) code).final machine
  | ⟨fuel, .exprs codes, machine⟩ => (evalAll (activate config fuel) codes).final machine
  | ⟨fuel, .enter closure args, machine⟩ => (activate config fuel closure args).final machine

/-- The machines that a run goes through: those in which a task begins or ends, and those in which a
block has made some of its declarations. -/
inductive Visited (config : Config) (program : Program) (fuel : Nat) (sink : Sink) :
    Machine → Prop where
  | opening {made rest : List Decl} (distinct : program.block.duplicate? = none)
    (front : program.block.declarations = made ++ rest) :
    Visited config program fuel sink
      ((declareAll made).final ⟨.initial, sink, [.runStart program.name.name]⟩)
  | before {point : Point} (reached : Reached config program fuel sink point) :
    Visited config program fuel sink point.machine
  | after {point : Point} (reached : Reached config program fuel sink point) :
    Visited config program fuel sink (point.final config)
  | declaring {depth : Nat} {closure : Closure} {args : List Value} {machine : Machine}
    {frame : Scope} {made rest : List Decl}
    (reached : Reached config program fuel sink ⟨depth + 1, .enter closure args, machine⟩)
    (room : machine.callDepth < config.maxCallDepth)
    (home : (machine.store.scope? closure.home).isSome)
    (framed : closure.routine.heading.frame (machine.store.inner closure.name closure.home) args =
      .ok frame)
    (front : closure.routine.block.declarations = made ++ rest) :
    Visited config program fuel sink ((declareAll made).final
      ⟨machine.store.push frame, machine.sink,
        .enter closure.routine.heading.kind closure.name machine.store.size :: machine.events⟩)

section

variable {config : Config} {program : Program} {fuel : Nat} {sink : Sink} {point next : Point}
  {level : Level} {around : List Level} {machine : Machine}

/-- A step goes on with scopes that have evolved, or begins an activation. -/
theorem Step.evolves_or_begins (linked : point.machine.Linked) (step : Step config point next) :
    point.machine.store.Evolves point.machine.chain next.machine.store ∨
      ∃ closure args, point.task = .enter closure args ∧
        Begins config closure args point.machine next.machine := by
  have sound := activate_confined config point.fuel
  cases step with
  | first | compound | assigned | ifThenCond | ifElseCond | loop | roundBody | operand | left
  | comparedLeft | firstExpr => exact .inl (.refl _ _)
  | rest run => exact .inl ((exec_confined sound _ _ linked).evolves run)
  | stmtArgs found | exprArgs found | nameCall unbound found =>
    obtain ⟨rfl, -⟩ := callee_ok found
    exact .inl (.refl _ _)
  | stmtCall found run | exprCall found run =>
    obtain ⟨rfl, -⟩ := callee_ok found
    exact .inl ((evalAll_confined sound _ linked).evolves run)
  | ifThenBranch run | ifElseBranch run | ifElseOtherwise run =>
    exact .inl ((evalCondition_confined sound linked _).evolves run)
  | roundCond run => exact .inl ((execAll_confined sound _ _ linked).evolves run)
  | nextRound run again =>
    have body := (execAll_confined sound _ _ linked).evolves run
    have cond := (evalCondition_confined sound (linked.evolve body) _).evolves again
    rw [Machine.chain_eq body] at cond
    exact .inl (body.trans cond)
  | right run | comparedRight run | restExprs run =>
    exact .inl ((eval_confined sound _ linked).evolves run)
  | enter begins => exact .inr ⟨_, _, rfl, begins⟩

/-- However a task ends, the scopes that were there when it began have only evolved. -/
theorem Point.Placed.final_evolves (placed : point.Placed program level around) :
    point.machine.store.Evolves point.machine.chain (point.final config).store := by
  have linked := placed.executes.linked
  obtain ⟨fuel, task, machine⟩ := point
  have sound := activate_confined config fuel
  cases task with
  | stmts body => exact execAll_confined sound fuel body linked
  | stmt code => exact exec_confined sound fuel code linked
  | rounds body cond left =>
    refine repeatUntil_confined (fun machine linked => ?_) left linked
    exact (execAll_confined sound fuel body linked).bind fun _ _ _ evolves =>
      evalCondition_confined sound (linked.evolve evolves) cond
  | expr code => exact eval_confined sound code linked
  | exprs codes => exact evalAll_confined sound codes linked
  | enter closure args =>
    obtain ⟨out, -, atHome, -⟩ := placed.enters closure args rfl
    exact sound.confined linked (List.mem_of_getElem? atHome)

theorem Action.declareAll_final {below : Store} {frame : Scope} (sink : Sink)
    (events : List RunEvent) (declarations : List Decl) (sound : frame.Sound below.size) :
    ∃ scope, ((declareAll declarations).final ⟨below.push frame, sink, events⟩).store =
      below.push scope ∧ scope.Sound below.size := by
  have made := declareAll_push below frame sink events declarations
  rw [Action.final]
  generalize declareAll declarations _ = outcome at made ⊢
  cases made with
  | all kept => exact ⟨_, rfl, kept sound⟩
  | taken made stopped taken kept => exact ⟨_, rfl, kept sound⟩

/-- A property of stores that the changes of a run keep: it may replace values by others of the same
type, and add a scope as long as not too many activations are live. -/
structure Store.Invariant (config : Config) (holds : Store → Prop) : Prop where
  empty : holds ⟨#[]⟩
  evolves : ∀ {writable before after}, before.Evolves writable after → holds before → holds after
  push : ∀ {below scope}, below.size ≤ config.maxCallDepth → scope.Sound below.size →
    holds below → holds (below.push scope)

variable {holds : Store → Prop}

theorem Store.Invariant.declared (invariant : Store.Invariant config holds) {below : Store}
    {frame : Scope} (events : List RunEvent) (declarations : List Decl)
    (room : below.size ≤ config.maxCallDepth) (sound : frame.Sound below.size)
    (before : holds below) :
    holds ((declareAll declarations).final ⟨below.push frame, sink, events⟩).store := by
  obtain ⟨scope, same, sound⟩ := Action.declareAll_final sink events declarations sound
  rw [same]
  exact invariant.push room sound before

theorem Store.Invariant.framed (invariant : Store.Invariant config holds) {closure : Closure}
    {args : List Value} {frame : Scope} (events : List RunEvent) (declarations : List Decl)
    (room : machine.callDepth < config.maxCallDepth)
    (framed : closure.routine.heading.frame (machine.store.inner closure.name closure.home) args =
      .ok frame) (before : holds machine.store) :
    holds ((declareAll declarations).final ⟨machine.store.push frame, sink, events⟩).store := by
  obtain ⟨vars, binds, -⟩ := Heading.frame_binds machine.store.size
    (Scope.sound_of_empty closure.name (machine.store.chain closure.home)) framed
  rw [Machine.callDepth] at room
  exact invariant.declared events declarations (by omega) binds.sound before

theorem Reached.satisfies (invariant : Store.Invariant config holds)
    (reached : Reached config program fuel sink point) : holds point.machine.store := by
  induction reached with
  | start distinct declared =>
    rw [← final_of_ok declared]
    exact invariant.declared _ _ (Nat.zero_le _) (Scope.sound_of_empty _ _) invariant.empty
  | step reached step ih =>
    obtain ⟨level, around, placed⟩ := reached.placed
    rcases step.evolves_or_begins placed.executes.linked with evolves | ⟨closure, args, -, begins⟩
    · exact invariant.evolves evolves ih
    · obtain ⟨frame, framed, declared⟩ := begins.declared
      rw [← final_of_ok declared]
      exact invariant.framed _ _ begins.room framed ih

/-- What the changes of a run keep holds throughout the run. -/
theorem Visited.satisfies (invariant : Store.Invariant config holds)
    (visited : Visited config program fuel sink machine) : holds machine.store := by
  cases visited with
  | opening distinct front =>
    exact invariant.declared _ _ (Nat.zero_le _) (Scope.sound_of_empty _ _) invariant.empty
  | before reached => exact reached.satisfies invariant
  | after reached =>
    obtain ⟨level, around, placed⟩ := reached.placed
    exact invariant.evolves placed.final_evolves (reached.satisfies invariant)
  | declaring reached room home framed front =>
    exact invariant.framed _ _ room framed (reached.satisfies invariant)

end

end MiniPascal
