import MiniPascal.Proofs.Run.Declares

namespace MiniPascal

namespace Action

theorem note_apply (event : RunEvent) (machine : Machine) :
    note event machine = .ok () { machine with events := event :: machine.events } := rfl

theorem callee_apply (name : String) (actual : Nat) (machine : Machine) :
    callee name actual machine =
      match machine.store.routine? machine.current name with
      | some closure =>
        if closure.routine.heading.params.length = actual then .ok (.routine closure) machine
        else .error (.fault
          (.arityMismatch closure.name closure.routine.heading.params.length actual)) machine
      | none =>
        match Builtin.find? name with
        | some builtin =>
          if builtin.arity = actual then .ok (.builtin builtin) machine
          else .error (.fault (.arityMismatch name builtin.arity actual)) machine
        | none => .error (.fault (.undefinedRoutine name)) machine := by
  rw [callee, get_bind]
  cases machine.store.routine? machine.current name with
  | some closure =>
    by_cases fits : closure.routine.heading.params.length = actual
    · simp only [fits]
      rfl
    · simp only [fits]
      rfl
  | none =>
    cases Builtin.find? name with
    | some builtin =>
      by_cases fits : builtin.arity = actual
      · simp only [fits]
        rfl
      · simp only [fits]
        rfl
    | none => rfl

theorem readName_apply (enter : Activate) (name : String) (machine : Machine) :
    readName enter name machine =
      match machine.store.binding? machine.current name with
      | some (_, binding) =>
        match binding.value with
        | some value => .ok value machine
        | none => .error (.fault (.uninitializedVariable name)) machine
      | none =>
        if (machine.store.routine? machine.current name).isSome then
          (do result name (← call enter (← callee name 0) [])) machine
        else .error (.fault (.undeclaredVariable name)) machine := by
  rw [readName, get_bind, Store.get]
  cases machine.store.binding? machine.current name with
  | none =>
    simp only
    split <;> rfl
  | some found =>
    obtain ⟨owner, binding, type, value⟩ := found
    cases value with
    | none => rfl
    | some value => rfl

theorem assign_apply (name : String) (value : Value) (machine : Machine) :
    assign name value machine =
      match machine.store.assign machine.current name value with
      | .ok store => .ok () { machine with store := store }
      | .error cause => .error (.fault cause) machine :=
  updateStore_eq _ machine

/-- What a function returns, as its scope says at the end. -/
def returned (heading : Heading) (machine : Machine) : Option Value :=
  heading.result.map fun type =>
    ((machine.store.scope? machine.current).bind (·.localValue? heading.name.name)).getD (.zero type)

theorem activation_apply (enter : Activate) (rounds : Nat) (routine : Routine)
    (machine : Machine) :
    activation enter rounds routine machine =
      match execBlock enter rounds routine.block { machine with
          events := .enter routine.heading.kind routine.heading.name.name machine.callDepth ::
            machine.events } with
      | .ok () after => .ok (returned routine.heading after) after
      | .error stop after => .error stop after := by
  rw [activation, get_bind, bind_of_ok (note_apply _ _)]
  cases body : execBlock enter rounds routine.block { machine with
      events := .enter routine.heading.kind routine.heading.name.name machine.callDepth ::
        machine.events } with
  | ok result after => exact bind_of_ok body
  | error stop after => exact bind_of_error body

theorem activate_succ (config : Config) (fuel : Nat) (closure : Closure) (args : List Value)
    (machine : Machine) :
    activate config (fuel + 1) closure args machine =
      if config.maxCallDepth ≤ machine.callDepth then
        .error (.fault (.recursionLimit config.maxCallDepth)) machine
      else
        match machine.store.scope? closure.home with
        | none => .error (.fault (.undefinedRoutine closure.name)) machine
        | some _ =>
          match closure.routine.heading.frame (machine.store.inner closure.name closure.home) args with
          | .error cause => .error (.fault cause) machine
          | .ok frame =>
            match activation (activate config fuel) fuel closure.routine
                { machine with store := machine.store.push frame } with
            | .ok value after =>
              .ok value { after with
                store := after.store.pop
                events := .leave closure.routine.heading.kind closure.name value :: after.events }
            | .error stop after => .error stop { after with store := after.store.pop } := by
  rw [activate, get_bind]
  by_cases deep : config.maxCallDepth ≤ machine.callDepth
  · simp only [deep, if_true]
    rfl
  · simp only [deep, if_false]
    cases machine.store.scope? closure.home with
    | none => rfl
    | some home =>
      cases framed : closure.routine.heading.frame
          (machine.store.inner closure.name closure.home) args with
      | error cause => rfl
      | ok frame =>
        change (inScope frame (activation (activate config fuel) fuel closure.routine) >>= fun value =>
          (do note (.leave closure.routine.heading.kind closure.name value); return value)) machine = _
        cases body : activation (activate config fuel) fuel closure.routine
            { machine with store := machine.store.push frame } with
        | ok value after =>
          have ended : inScope frame (activation (activate config fuel) fuel closure.routine)
              machine = .ok value { after with store := after.store.pop } := by
            rw [inScope, body]
          simp only [bind_of_ok ended, body]
          rfl
        | error stop after =>
          have ended : inScope frame (activation (activate config fuel) fuel closure.routine)
              machine = .error stop { after with store := after.store.pop } := by
            rw [inScope, body]
          simp only [bind_of_error ended, body]

section

variable {α : Type} {body : Action α} {machine after : Machine}

theorem afresh_of_ok {result : α} (run : body { machine with store := .initial } = .ok result after) :
    afresh body machine = .ok result { after with store := .empty } := by
  rw [afresh, run]

theorem afresh_of_error {stop : RunStop}
    (run : body { machine with store := .initial } = .error stop after) :
    afresh body machine = .error stop { after with store := .empty } := by
  rw [afresh, run]

end

end Action

section

variable {program : Program} {config : Config} {fuel : Nat} {sink : Sink} {machine : Machine}

theorem Program.run_of_ok {snapshot : Snapshot}
    (run : Action.run config fuel program ⟨.empty, sink, []⟩ = .ok snapshot machine) :
    program.run config fuel sink = ⟨.ok snapshot, machine.sink, machine.events.reverse⟩ := by
  simp only [Program.run, Session.run, Session.start, run]

theorem Program.run_of_error {stop : RunStop}
    (run : Action.run config fuel program ⟨.empty, sink, []⟩ = .error stop machine) :
    program.run config fuel sink = ⟨.error stop, machine.sink, machine.events.reverse⟩ := by
  simp only [Program.run, Session.run, Session.start, run]

/-- A run that fails the check for duplicates does nothing else. -/
theorem Program.run_of_duplicate {name : String} (config : Config) (fuel : Nat) (sink : Sink)
    (found : program.block.duplicate? = some name) :
    program.run config fuel sink =
      ⟨.error (.fault (.duplicateDeclaration name)), sink, [.runStart program.name.name]⟩ := by
  have run : Action.run config fuel program ⟨.empty, sink, []⟩ =
      .error (.fault (.duplicateDeclaration name)) ⟨.empty, sink, [.runStart program.name.name]⟩ := by
    rw [Action.run, bind_of_ok (Action.note_apply _ _), found]
    rfl
  rw [Program.run_of_error run]
  rfl

/-- A run that has made its declarations ends as its statements do. -/
theorem Program.run_of_declared (config : Config) (fuel : Nat)
    (distinct : program.block.duplicate? = none)
    (declared : Action.declareAll program.block.declarations
      ⟨.initial, sink, [.runStart program.name.name]⟩ = .ok () machine) :
    (∃ last, Action.execAll (Action.activate config fuel) fuel program.block.body machine =
        .ok () last ∧
      program.run config fuel sink =
        ⟨.ok (Snapshot.ofScope ((last.store.scope? last.current).getD .global)), last.sink,
          (.runFinished program.name.name :: last.events).reverse⟩) ∨
      ∃ stop last, Action.execAll (Action.activate config fuel) fuel program.block.body machine =
          .error stop last ∧
        program.run config fuel sink = ⟨.error stop, last.sink, last.events.reverse⟩ := by
  have started : Action.run config fuel program ⟨.empty, sink, []⟩ =
      Action.afresh (Action.main config fuel program)
        ⟨.empty, sink, [.runStart program.name.name]⟩ := by
    rw [Action.run, bind_of_ok (Action.note_apply _ _), distinct]
  have block : Action.execBlock (Action.activate config fuel) fuel program.block
      ⟨.initial, sink, [.runStart program.name.name]⟩ =
        Action.execAll (Action.activate config fuel) fuel program.block.body machine := by
    rw [Action.execBlock, bind_of_ok declared]
  cases body : Action.execAll (Action.activate config fuel) fuel program.block.body machine with
  | ok _ last =>
    have main : Action.main config fuel program
        ⟨.initial, sink, [.runStart program.name.name]⟩ = .ok _ _ := bind_of_ok (block.trans body)
    have ended := Program.run_of_ok (started.trans (Action.afresh_of_ok main))
    exact .inl ⟨last, rfl, ended⟩
  | error stop last =>
    have main : Action.main config fuel program
        ⟨.initial, sink, [.runStart program.name.name]⟩ = .error _ _ :=
      bind_of_error (block.trans body)
    have ended := Program.run_of_error (started.trans (Action.afresh_of_error main))
    exact .inr ⟨stop, last, rfl, ended⟩

end

end MiniPascal
