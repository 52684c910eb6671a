import MiniPascal.Interpret
import MiniPascal.Proofs.Run.BoundedSink

namespace MiniPascal

/-- A scope without what its variables hold. -/
def Scope.frame (scope : Scope) : Scope :=
  { scope with bindings := scope.bindings.map fun binding => { binding with value := none } }

/-- The activations of a store one upon the other, whatever their variables hold. -/
def Store.frames (store : Store) : List Scope := store.scopes.toList.map Scope.frame

theorem Scope.Evolves.frame_eq {before after : Scope} (evolves : before.Evolves after) :
    after.frame = before.frame := by
  have emptied {old new : List Binding} (bindings : List.Forall₂ Binding.Evolves old new) :
      new.map (fun binding => { binding with value := none }) =
        old.map fun binding => { binding with value := none } := by
    induction bindings with
    | nil => rfl
    | cons head tail ih => rw [List.map_cons, List.map_cons, ih, head.name, head.type]
  obtain ⟨name, bindings, routines, enclosing⟩ := before
  obtain ⟨laterName, laterBindings, laterRoutines, laterEnclosing⟩ := after
  obtain ⟨rfl, rfl, rfl, values⟩ := evolves
  simp only [Scope.frame, emptied values]

/-- What code may do to the values of variables does not show in the stack. -/
theorem Store.Evolves.frames_eq {writable : List ScopeId} {before after : Store}
    (evolves : before.Evolves writable after) : after.frames = before.frames := by
  apply List.ext_getElem?
  intro id
  have framed (store : Store) : store.frames[id]? = (store.scope? id).map Scope.frame := by
    rw [Store.frames, List.getElem?_map, Array.getElem?_toList, Store.scope?]
  rw [framed, framed]
  cases found : before.scope? id with
  | none => rw [evolves.scope?_none found]
  | some scope =>
    obtain ⟨later, atLater, step, -⟩ := evolves.scope id scope found
    rw [atLater, Option.map_some, Option.map_some, step.frame_eq]

/-- The sessions that programs lead to, one after another, however each of them ends. -/
inductive Session.After (config : Config) (sink : Sink) : Session → Prop where
  | start : After config sink (.start config sink)
  | run {session : Session} (fuel : Nat) (program : Program) (after : After config sink session) :
    After config sink (session.run fuel program).2

section

variable {config : Config} {sink : Sink} {session : Session}

/-- What lies on the stack when a run begins does not come into it. -/
theorem Session.run_report (session : Session) (fuel : Nat) (program : Program) :
    (session.run fuel program).1 = program.run session.config fuel session.sink := by
  obtain ⟨config, stack, sink⟩ := session
  rw [Program.run, Session.run, Session.run, Session.start, Action.run]
  rw [bind_of_ok (Action.note_apply _ _), bind_of_ok (Action.note_apply _ _)]
  cases program.block.duplicate? with
  | some name => rfl
  | none => simp only [Action.afresh]

theorem Session.run_next (session : Session) (fuel : Nat) (program : Program) :
    (session.run fuel program).2.config = session.config ∧
      (session.run fuel program).2.sink = (session.run fuel program).1.sink := by
  rw [Session.run]
  split
  · exact ⟨rfl, rfl⟩
  · exact ⟨rfl, rfl⟩

/-- A run takes all scopes off the stack at its end; one that is refused has put none on it. -/
theorem Session.run_stack (clear : session.stack = .empty) (fuel : Nat) (program : Program) :
    (session.run fuel program).2.stack = .empty := by
  rw [Session.run, Action.run, bind_of_ok (Action.note_apply _ _)]
  cases program.block.duplicate? with
  | some name => exact clear
  | none =>
    simp only [Action.afresh]
    cases Action.main session.config fuel program _ with
    | ok snapshot last => rfl
    | error stop last => rfl

theorem Session.After.clear (after : Session.After config sink session) :
    session.config = config ∧ session.stack = .empty := by
  induction after with
  | start => exact ⟨rfl, rfl⟩
  | @run session fuel program after ih =>
    exact ⟨(session.run_next fuel program).1.trans ih.1, Session.run_stack ih.2 fuel program⟩

theorem Session.interpret_alone (session : Session) (fuel : Nat) (source : String) :
    (session.interpret fuel source).1 = MiniPascal.interpret session.config fuel session.sink source ∧
      (session.interpret fuel source).2.config = session.config ∧
      (session.interpret fuel source).2.sink = (session.interpret fuel source).1.sink := by
  rw [Session.interpret, MiniPascal.interpret]
  cases (parse source).outcome with
  | error stop => exact ⟨rfl, rfl, rfl⟩
  | ok program =>
    obtain ⟨kept, taken⟩ := session.run_next fuel program
    refine ⟨?_, kept, taken⟩
    simp only [session.run_report, Program.interpret]

theorem Session.interpretAll_cons (session : Session) (fuel : Nat) (source : String)
    (rest : List String) :
    session.interpretAll fuel (source :: rest) =
      (session.interpret fuel source).1 :: (session.interpret fuel source).2.interpretAll fuel rest :=
  rfl

/-- Texts that are interpreted on sessions of the same limits and the same sink give the same. -/
theorem Session.interpretAll_congr (fuel : Nat) (sources : List String) {session other : Session}
    (limits : session.config = other.config) (sinks : session.sink = other.sink) :
    session.interpretAll fuel sources = other.interpretAll fuel sources := by
  induction sources generalizing session other with
  | nil => rfl
  | cons source rest ih =>
    obtain ⟨alone, kept, taken⟩ := session.interpret_alone fuel source
    obtain ⟨alone', kept', taken'⟩ := other.interpret_alone fuel source
    have same : (session.interpret fuel source).1 = (other.interpret fuel source).1 := by
      rw [alone, alone', limits, sinks]
    rw [Session.interpretAll_cons, Session.interpretAll_cons, same]
    rw [ih (kept.trans (limits.trans kept'.symm)) (by rw [taken, taken', same])]

theorem interpretAll_cons (config : Config) (fuel : Nat) (sink : Sink) (source : String)
    (rest : List String) :
    interpretAll config fuel sink (source :: rest) =
      interpret config fuel sink source ::
        interpretAll config fuel (interpret config fuel sink source).sink rest := by
  obtain ⟨alone, kept, taken⟩ := (Session.start config sink).interpret_alone fuel source
  rw [interpretAll, Session.interpretAll_cons, alone, interpretAll]
  congr 1
  exact Session.interpretAll_congr fuel rest kept (taken.trans (congrArg Interpretation.sink alone))

end

/-- Of two sinks with the same room the second has taken some bytes before. -/
structure Sink.Behind (front : ByteArray) (low high : Sink) : Prop where
  taken : high.taken = front ++ low.taken
  room : high.room = low.room

section

variable {front : ByteArray} {low high : Sink}

theorem Sink.Behind.write (behind : low.Behind front high) (bytes : ByteArray) :
    (low.write bytes).2 = (high.write bytes).2 ∧
      (low.write bytes).1.Behind front (high.write bytes).1 := by
  obtain ⟨taken, room⟩ := behind
  rw [Sink.write, Sink.write, room]
  cases low.room with
  | none => exact ⟨rfl, by rw [taken, ByteArray.append_assoc], rfl⟩
  | some left =>
    dsimp only
    by_cases fits : bytes.size ≤ left
    · rw [if_pos fits, if_pos fits]
      exact ⟨rfl, by rw [taken, ByteArray.append_assoc], rfl⟩
    · rw [if_neg fits, if_neg fits]
      exact ⟨rfl, by rw [taken, ByteArray.append_assoc], rfl⟩

theorem Sink.Behind.writeAll (behind : low.Behind front high) (texts : List String) :
    (low.writeAll texts).2 = (high.writeAll texts).2 ∧
      (low.writeAll texts).1.Behind front (high.writeAll texts).1 := by
  induction texts generalizing low high with
  | nil => exact ⟨rfl, behind⟩
  | cons text rest ih =>
    obtain ⟨same, after⟩ := behind.write text.toUTF8
    rw [Sink.writeAll, Sink.writeAll]
    rcases lowWrite : low.write text.toUTF8 with ⟨lowAfter, all⟩
    rcases highWrite : high.write text.toUTF8 with ⟨highAfter, highAll⟩
    rw [lowWrite, highWrite] at same after
    obtain rfl : all = highAll := same
    cases all with
    | true => exact ih after
    | false => exact ⟨rfl, after⟩

/-- The same run on a sink that has taken something before: neither falls short of the other. -/
def Shortfall.ofEarlier (front : ByteArray) : Shortfall where
  stop := .outOfFuel
  alike := Sink.Behind front
  short := fun _ _ => False
  grows := fun impossible _ => impossible
  builtin := by
    intro builtin args low high behind
    obtain ⟨same, after⟩ := behind.writeAll (builtin.output args)
    rw [Builtin.run_eq, Builtin.run_eq, same]
    exact .inl ⟨rfl, after⟩

/-- What a sink has taken before a run shows neither in how the run ends nor in its events, and the
run adds to it what it writes to a new sink of the same room. -/
theorem Program.run_on_earlier (program : Program) (config : Config) (fuel : Nat) (sink : Sink)
    {own : RunReport} (alone : program.run config fuel (.empty sink.room) = own) :
    (program.run config fuel sink).outcome = own.outcome ∧
      (program.run config fuel sink).events = own.events ∧
      (program.run config fuel sink).sink.taken = sink.taken ++ own.sink.taken ∧
      (program.run config fuel sink).sink.room = own.sink.room := by
  have start : (Shortfall.ofEarlier sink.taken).alike (.empty sink.room) sink :=
    ⟨ByteArray.append_empty.symm, rfl⟩
  rcases Program.run_compares start (.inl rfl) (.inl rfl) alone rfl with
    ⟨outcome, sinks, events⟩ | ⟨-, impossible, -⟩
  · obtain ⟨taken, room⟩ : own.sink.Behind sink.taken (program.run config fuel sink).sink := sinks
    exact ⟨outcome.symm, events.symm, taken, room⟩
  · exact impossible.elim

end

/-- At the end of its statements a program has left no scope but the one it began with. -/
theorem Program.stack_at_end {program : Program} (distinct : program.block.duplicate? = none)
    (config : Config) (fuel : Nat) (sink : Sink) :
    ((Action.execBlock (Action.activate config fuel) fuel program.block).final
      ⟨.initial, sink, [.runStart program.name.name]⟩).store.size = 1 := by
  obtain ⟨machine, declared⟩ := declared_of_distinct distinct sink
  have reached : Reached config program fuel sink ⟨fuel, .stmts program.block.body, machine⟩ :=
    .start distinct declared
  obtain ⟨level, around, placed⟩ := reached.placed
  have evolves := Action.execAll_confined (Action.activate_confined config fuel) fuel
    program.block.body placed.executes.linked
  have global : Scope.global.Sound (Store.mk #[]).size := Scope.sound_of_empty _ _
  obtain ⟨scope, opened, -⟩ := Action.declareAll_final sink [.runStart program.name.name]
    program.block.declarations global
  rw [Action.execBlock, Action.final_bind declared, evolves.size]
  have size : machine.store = Store.push ⟨#[]⟩ scope := by
    rw [← opened, ← Action.final_of_ok declared]
    rfl
  rw [size, Store.size_push]
  rfl

/-- Programs that run one after another on one session do not come into each other's way. Whatever
ran before and however it ended, no scope is left on the stack, and the next program gives the same
outcome, events and sink as it gives by itself, on a new session of the same limits and on the same
sink; it writes what it writes to a new sink of the same room. So texts that are interpreted one
after another pass on nothing but the sink. In every run each statement and each expression,
however it ends, leaves the stack as it found it, and the statements of the program leave the
outermost scope alone on it. -/
theorem session_independent (config : Config) (sink : Sink) :
    (∀ session, Session.After config sink session → session.config = config ∧
      session.stack.size = 0 ∧ ∀ fuel program,
        (session.run fuel program).1 = program.run config fuel session.sink ∧
        (session.run fuel program).2.sink = (session.run fuel program).1.sink ∧
        ∃ own, program.run config fuel (.empty session.sink.room) = own ∧
          (session.run fuel program).1.outcome = own.outcome ∧
          (session.run fuel program).1.events = own.events ∧
          (session.run fuel program).1.sink.taken = session.sink.taken ++ own.sink.taken ∧
          (session.run fuel program).1.sink.room = own.sink.room) ∧
    (∀ fuel source rest, interpretAll config fuel sink (source :: rest) =
      interpret config fuel sink source ::
        interpretAll config fuel (interpret config fuel sink source).sink rest) ∧
    (∀ program fuel point, Reached config program fuel sink point →
      (∀ depth rounds stmt,
        ((Action.exec (Action.activate config depth) rounds stmt).final point.machine).store.frames =
          point.machine.store.frames) ∧
      ∀ depth expr,
        ((Action.eval (Action.activate config depth) expr).final point.machine).store.frames =
          point.machine.store.frames) ∧
    ∀ (program : Program) fuel, program.block.duplicate? = none →
      ((Action.execBlock (Action.activate config fuel) fuel program.block).final
        ⟨.initial, sink, [.runStart program.name.name]⟩).store.size = 1 := by
  refine ⟨?_, fun fuel => interpretAll_cons config fuel sink, ?_, fun program fuel distinct =>
    Program.stack_at_end distinct config fuel sink⟩
  · intro session after
    obtain ⟨rfl, clear⟩ := after.clear
    refine ⟨rfl, by rw [clear]; rfl, fun fuel program => ?_⟩
    refine ⟨session.run_report fuel program, (session.run_next fuel program).2, _, rfl, ?_⟩
    rw [session.run_report fuel program]
    exact program.run_on_earlier session.config fuel session.sink rfl
  · intro program fuel point reached
    obtain ⟨level, around, placed⟩ := reached.placed
    have linked := placed.executes.linked
    constructor
    · intro depth rounds stmt
      have activates := Action.activate_confined config depth
      exact (Action.exec_confined activates rounds stmt linked).frames_eq
    · intro depth expr
      have activates := Action.activate_confined config depth
      exact (Action.eval_confined activates expr linked).frames_eq

/-- A run that ends by the limit on activations leaves eight bytes of room. The next one finds no
scope on the stack and ends as it does on a new sink of eight bytes. -/
theorem session_independent_endless : ∃ session,
    Session.After ⟨2⟩ (.empty (some 20)) session ∧ session.sink.room = some 8 ∧
      session.stack.size = 0 ∧ (session.run 3 endless).1.outcome = .error (.fault .sinkClosed) := by
  have first : Session.After ⟨2⟩ (.empty (some 20)) _ := .run 3 endless .start
  have room : ((Session.start ⟨2⟩ (.empty (some 20))).run 3 endless).2.sink.room = some 8 := by cbv
  have closes : (endless.run ⟨2⟩ 3 (.empty (some 8))).outcome = .error (.fault .sinkClosed) := by
    cbv
  obtain ⟨-, clear, alone⟩ := (session_independent ⟨2⟩ (.empty (some 20))).1 _ first
  obtain ⟨-, -, own, ran, outcome, -⟩ := alone 3 endless
  rw [room] at ran
  exact ⟨_, first, room, clear, by rw [outcome, ← ran, closes]⟩

end MiniPascal
