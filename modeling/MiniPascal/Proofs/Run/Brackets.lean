import MiniPascal.Proofs.Run.Completed
import MiniPascal.Proofs.Run.Declarations
import MiniPascal.Proofs.Run.RecursionLimit
import MiniPascal.Proofs.Run.TypedStore

namespace MiniPascal

open MiniPascal.Action

/-- What a routine may give back: a function a value of its type, a procedure none. -/
def Heading.Gives (heading : Heading) (value : Option Value) : Prop :=
  value.map Value.kind = heading.result.map VarType.kind

/-- The event of an activation that begins, as the last of so many live ones. -/
def Routine.entry (routine : Routine) (depth : Nat) : RunEvent :=
  .enter routine.heading.kind routine.heading.name.name depth

/-- The event of an activation that ends. -/
def Routine.exit (routine : Routine) (value : Option Value) : RunEvent :=
  .leave routine.heading.kind routine.heading.name.name value

/-- Events of calls that have all ended, where so many activations were live before and after: every
call of a routine of the program is noted by its entry, by what was noted while it was live, and by
its exit. -/
inductive Bracketed (program : Program) (limit : Nat) : Nat → List RunEvent → Prop where
  | nil {depth : Nat} : Bracketed program limit depth []
  | declare {depth : Nat} {kind : RoutineKind} {routine scope : String} {rest : List RunEvent}
    (later : Bracketed program limit depth rest) :
    Bracketed program limit depth (.declare kind routine scope :: rest)
  | call {depth : Nat} {routine : Routine} {value : Option Value} {inside rest : List RunEvent}
    (known : routine.level ∈ program.levels) (room : depth < limit)
    (within : Bracketed program limit (depth + 1) inside) (gives : routine.heading.Gives value)
    (later : Bracketed program limit depth rest) :
    Bracketed program limit depth
      (routine.entry (depth + 1) :: (inside ++ routine.exit value :: rest))

/-- Events of calls of which the last have not ended. These lie one in the other, and are listed from
the outermost on. -/
inductive Unclosed (program : Program) (limit : Nat) : Nat → List Routine → List RunEvent → Prop where
  | none {depth : Nat} {noted : List RunEvent} (whole : Bracketed program limit depth noted) :
    Unclosed program limit depth [] noted
  | within {depth : Nat} {routine : Routine} {live : List Routine} {before noted : List RunEvent}
    (earlier : Bracketed program limit depth before) (known : routine.level ∈ program.levels)
    (room : depth < limit) (inside : Unclosed program limit (depth + 1) live noted) :
    Unclosed program limit depth (routine :: live) (before ++ routine.entry (depth + 1) :: noted)

section

variable {program : Program} {limit depth : Nat} {live : List Routine} {routine : Routine}
  {noted more : List RunEvent}

theorem Bracketed.append (first : Bracketed program limit depth noted)
    (second : Bracketed program limit depth more) :
    Bracketed program limit depth (noted ++ more) := by
  induction first with
  | nil => exact second
  | declare later ih => exact .declare (ih second)
  | call known room within gives later _ ih =>
    rw [List.cons_append, List.append_assoc, List.cons_append]
    exact .call known room within gives (ih second)

theorem Unclosed.append (pending : Unclosed program limit depth live noted)
    (second : Bracketed program limit (depth + live.length) more) :
    Unclosed program limit depth live (noted ++ more) := by
  induction pending with
  | none whole => exact .none (whole.append second)
  | within earlier known room inside ih =>
    rw [List.append_assoc, List.cons_append]
    refine .within earlier known room (ih ?_)
    rw [List.length_cons] at second
    rwa [Nat.add_right_comm, Nat.add_assoc]

/-- One more activation has begun, and some calls in it have ended. -/
theorem Unclosed.enter (pending : Unclosed program limit depth live noted)
    (known : routine.level ∈ program.levels) (room : depth + live.length < limit)
    (inside : Bracketed program limit (depth + live.length + 1) more) :
    Unclosed program limit depth (live ++ [routine])
      (noted ++ routine.entry (depth + live.length + 1) :: more) := by
  induction pending with
  | none whole => exact .within whole known room (.none inside)
  | @within depth outer live before noted earlier knownOuter roomOuter within ih =>
    have deeper : depth + (outer :: live).length = depth + 1 + live.length := by
      rw [List.length_cons]
      omega
    rw [deeper] at room inside ⊢
    rw [List.append_assoc, List.cons_append, List.cons_append]
    exact .within earlier knownOuter roomOuter (ih room inside)

/-- Activations that have not ended could end one after the other, and each give zero. -/
theorem Unclosed.closes (pending : Unclosed program limit depth live noted) :
    ∃ rest, Bracketed program limit depth (noted ++ rest) := by
  induction pending with
  | none whole => exact ⟨[], by rwa [List.append_nil]⟩
  | @within depth routine live before noted earlier known room inside ih =>
    obtain ⟨rest, whole⟩ := ih
    have gives : routine.heading.Gives (routine.heading.result.map .zero) := by
      rw [Heading.Gives, Option.map_map]
      congr 1
      funext type
      cases type <;> rfl
    refine ⟨rest ++ [routine.exit (routine.heading.result.map .zero)], ?_⟩
    have last := earlier.append (.call known room whole gives .nil)
    simpa only [List.append_assoc, List.cons_append, List.nil_append] using last

end

/-- Between two machines calls were made that have all ended. -/
structure Machine.Brackets (program : Program) (limit : Nat) (before after : Machine) : Prop where
  noted : ∃ noted, after.events.reverse = before.events.reverse ++ noted ∧
    Bracketed program limit before.callDepth noted
  size : after.store.size = before.store.size

/-- The scopes of a run: the global one, and above it an activation of each of some routines. -/
structure Store.Stacks (store : Store) (live : List Routine) : Prop where
  size : store.size = live.length + 1
  active : ∀ (index : Nat) routine, live[index]? = some routine →
    store.Activation (index + 1) routine.level

/-- What a machine has noted so far tells which activations are live in it. -/
structure Machine.Tells (program : Program) (limit : Nat) (live : List Routine) (machine : Machine) :
    Prop where
  noted : ∃ noted, machine.events.reverse = .runStart program.name.name :: noted ∧
    Unclosed program limit 0 live noted
  scopes : machine.store.Stacks live

section

variable {config : Config} {program : Program} {fuel depth limit : Nat} {sink : Sink}
  {live : List Routine} {machine before middle after begun last : Machine} {point : Point}
  {closure : Closure} {args : List Value} {cause : Fault}

theorem Machine.Brackets.refl (machine : Machine) : machine.Brackets program limit machine :=
  ⟨⟨[], by rw [List.append_nil], .nil⟩, rfl⟩

theorem Machine.Brackets.trans (first : before.Brackets program limit middle)
    (second : middle.Brackets program limit after) : before.Brackets program limit after := by
  obtain ⟨⟨noted, front, whole⟩, size⟩ := first
  obtain ⟨⟨more, rest, whole'⟩, size'⟩ := second
  rw [Machine.callDepth, size, ← Machine.callDepth] at whole'
  exact ⟨⟨noted ++ more, by rw [rest, front, List.append_assoc], whole.append whole'⟩,
    size'.trans size⟩

theorem Action.declare_noted {decl : Decl} (run : declare decl machine = .ok () after) :
    ∃ noted, after.events.reverse = machine.events.reverse ++ noted ∧
      Bracketed program limit depth noted := by
  cases decl with
  | var name type =>
    rw [declare, updateStore_eq] at run
    split at run
    · cases run
      exact ⟨[], (List.append_nil _).symm, .nil⟩
    · cases run
  | routine heading declarations body =>
    rw [declare, get_bind, bind_of_ok (note_apply _ _), updateStore_eq] at run
    split at run
    · cases run
      exact ⟨[_], List.reverse_cons, .declare .nil⟩
    · cases run

/-- Declarations note nothing but themselves. -/
theorem Action.declareAll_noted {declarations : List Decl}
    (run : declareAll declarations machine = .ok () after) :
    ∃ noted, after.events.reverse = machine.events.reverse ++ noted ∧
      Bracketed program limit depth noted := by
  induction declarations generalizing machine with
  | nil =>
    cases run
    exact ⟨[], (List.append_nil _).symm, .nil⟩
  | cons first rest ih =>
    obtain ⟨_, middle, declared, later⟩ := ok_of_bind run
    obtain ⟨noted, front, whole⟩ := declare_noted declared
    obtain ⟨more, back, whole'⟩ := ih later
    exact ⟨noted ++ more, by rw [back, front, List.append_assoc], whole.append whole'⟩

theorem Action.declareAll_store {declarations : List Decl} {below : Store} {frame : Scope}
    {events : List RunEvent}
    (run : declareAll declarations ⟨below.push frame, sink, events⟩ = .ok () after) :
    ∃ scope, after.store = below.push scope := by
  have made := declareAll_push below frame sink events declarations
  rw [run] at made
  cases made with
  | all sound => exact ⟨_, rfl⟩

theorem Begins.noted (begins : Begins config closure args before begun) :
    (∃ scope, begun.store = before.store.push scope) ∧
      ∃ noted, begun.events.reverse =
          before.events.reverse ++ closure.routine.entry before.store.size :: noted ∧
        Bracketed program limit before.store.size noted := by
  obtain ⟨frame, -, declared⟩ := begins.declared
  obtain ⟨noted, front, whole⟩ := declareAll_noted declared
  refine ⟨declareAll_store declared, noted, ?_, whole⟩
  rw [front, List.reverse_cons, List.append_assoc]
  rfl

theorem Reached.size_eq (reached : Reached config program fuel sink point) :
    point.machine.store.size = point.machine.callDepth + 1 := by
  obtain ⟨level, around, placed⟩ := reached.placed
  obtain ⟨scope, found, -⟩ := placed.executes.current_activates
  have inside : point.machine.store.size - 1 < point.machine.store.size := Store.lt_size found
  rw [Machine.callDepth]
  omega

/-- An activation that ends is noted by its entry, the calls of its body, and its exit. -/
theorem Reached.call_brackets
    (reached : Reached config program fuel sink ⟨depth + 1, .enter closure args, before⟩)
    (begins : Begins config closure args before begun)
    (body : execAll (activate config depth) depth closure.routine.block.body begun = .ok () last)
    (brackets : begun.Brackets program config.maxCallDepth last) :
    ∃ inside, last.events.reverse =
        before.events.reverse ++ closure.routine.entry before.store.size :: inside ∧
      Bracketed program config.maxCallDepth before.store.size inside ∧
      last.store.size = before.store.size + 1 ∧
      closure.routine.heading.Gives (returned closure.routine.heading last) := by
  obtain ⟨⟨scope, opened⟩, noted, front, declared⟩ := begins.noted
  obtain ⟨⟨more, back, whole⟩, kept⟩ := brackets
  have size : begun.store.size = before.store.size + 1 := by rw [opened, Store.size_push]
  rw [Machine.callDepth, size, Nat.add_sub_cancel] at whole
  refine ⟨noted ++ more, ?_, declared.append whole, kept.trans size, ?_⟩
  · rw [back, front, List.append_assoc, List.cons_append]
  · have run : activate config (depth + 1) closure args before = _ := activate_of_begins begins
    rw [body] at run
    exact reached.result_kind run

theorem Machine.Brackets.completion (config : Config) (program : Program) (fuel : Nat) (sink : Sink) :
    Completion config program fuel sink (Machine.Brackets program config.maxCallDepth) where
  refl := .refl
  trans := .trans
  assign := by
    intro machine store name value stored
    obtain ⟨owner, binding, taken, -, -, rfl⟩ := Store.assign_ok stored
    exact ⟨⟨[], (List.append_nil _).symm, .nil⟩, by simp [Store.size]⟩
  builtin := by
    intro builtin args machine after run
    rw [runBuiltin] at run
    split at run
    · cases run
      exact ⟨⟨[], (List.append_nil _).symm, .nil⟩, rfl⟩
    · cases run
  activation := by
    intro depth closure args before begun last reached begins body brackets
    obtain ⟨inside, noted, whole, size, gives⟩ := reached.call_brackets begins body brackets
    have atDepth := reached.size_eq
    rw [atDepth] at noted whole
    have call := Bracketed.call reached.level_mem begins.room whole gives .nil
    refine ⟨⟨_, ?_, call⟩, ?_⟩
    · rw [List.reverse_cons, noted, List.append_assoc, List.cons_append]
      rfl
    · rw [Store.size_pop, size, Nat.add_sub_cancel]

theorem Store.Stacks.evolve {store later : Store} {writable : List ScopeId}
    (scopes : store.Stacks live) (evolves : store.Evolves writable later) : later.Stacks live :=
  ⟨evolves.size.trans scopes.size, fun index routine listed =>
    (scopes.active index routine listed).evolve evolves⟩

theorem Begins.active
    (reached : Reached config program fuel sink ⟨depth, .enter closure args, before⟩)
    (begins : Begins config closure args before begun) :
    begun.store.Activation before.store.size closure.routine.level := by
  obtain ⟨level, around, placed⟩ := reached.placed
  obtain ⟨out, -, atHome, arity⟩ := placed.enters closure args rfl
  obtain ⟨chain, executes⟩ := begins.executes placed.executes atHome arity
  have activations := executes.activations
  rw [chain] at activations
  exact (List.forall₂_cons.mp activations).1

/-- An activation that begins is the latest of the live ones. -/
theorem Machine.Tells.begin
    (reached : Reached config program fuel sink ⟨depth, .enter closure args, before⟩)
    (begins : Begins config closure args before begun)
    (tells : before.Tells program config.maxCallDepth live) :
    begun.Tells program config.maxCallDepth (live ++ [closure.routine]) := by
  obtain ⟨⟨noted, front, pending⟩, size, active⟩ := tells
  obtain ⟨⟨scope, opened⟩, more, back, whole⟩ := begins.noted
  have latest := begins.active reached
  have room := begins.room
  rw [Machine.callDepth, size, Nat.add_sub_cancel, ← Nat.zero_add live.length] at room
  rw [size] at back whole latest
  rw [← Nat.zero_add live.length] at back whole
  refine ⟨⟨_, ?_, pending.enter reached.level_mem room whole⟩, ?_, ?_⟩
  · rw [back, front, List.cons_append]
  · rw [opened, Store.size_push, size, List.length_append, List.length_singleton]
  · intro index routine listed
    by_cases outer : index < live.length
    · rw [List.getElem?_append_left outer] at listed
      rw [opened]
      exact (active index routine listed).push
    · obtain rfl : index = live.length := by
        have inside := (List.getElem?_eq_some_iff.mp listed).1
        rw [List.length_append, List.length_singleton] at inside
        omega
      rw [List.getElem?_concat_length] at listed
      cases listed
      exact latest

theorem Machine.Tells.completes (evolves : before.store.Evolves before.chain after.store)
    (brackets : before.Brackets program limit after) (tells : before.Tells program limit live) :
    after.Tells program limit live := by
  obtain ⟨⟨noted, front, pending⟩, scopes⟩ := tells
  obtain ⟨⟨more, back, whole⟩, -⟩ := brackets
  rw [Machine.callDepth, scopes.size, Nat.add_sub_cancel, ← Nat.zero_add live.length] at whole
  refine ⟨⟨_, ?_, pending.append whole⟩, scopes.evolve evolves⟩
  rw [back, front, List.cons_append]

theorem Step.tells {next : Point} (reached : Reached config program fuel sink point)
    (step : Step config point next) (tells : point.machine.Tells program config.maxCallDepth live) :
    ∃ live, next.machine.Tells program config.maxCallDepth live := by
  have entered : ∀ closure args, point.task = .enter closure args →
      Begins config closure args point.machine next.machine →
        ∃ live, next.machine.Tells program config.maxCallDepth live := by
    intro closure args entering begins
    obtain ⟨fuel, task, machine⟩ := point
    obtain rfl : task = .enter closure args := entering
    exact ⟨_, tells.begin reached begins⟩
  obtain ⟨level, around, placed⟩ := reached.placed
  have law := Machine.Brackets.completion config program fuel sink
  rcases step.evolves_or_begins placed.executes.linked with
    evolves | ⟨closure, args, entering, begins⟩
  · rcases law.step reached step with brackets | ⟨closure, args, entering, begins⟩
    · exact ⟨live, tells.completes evolves brackets⟩
    · exact entered closure args entering begins
  · exact entered closure args entering begins

theorem Program.opening_tells (declared : declareAll program.block.declarations
      ⟨.initial, sink, [.runStart program.name.name]⟩ = .ok () machine) :
    machine.Tells program limit [] := by
  have opening : declareAll program.block.declarations
      ⟨Store.push ⟨#[]⟩ .global, sink, [.runStart program.name.name]⟩ = .ok () machine := declared
  obtain ⟨scope, opened⟩ := declareAll_store opening
  obtain ⟨noted, front, whole⟩ := declareAll_noted declared
  refine ⟨⟨noted, front, .none whole⟩, ?_, nofun⟩
  rw [opened, Store.size_push]
  rfl

/-- At every point of a run the events so far tell which activations are live. -/
theorem Reached.tells (reached : Reached config program fuel sink point) :
    ∃ live, point.machine.Tells program config.maxCallDepth live := by
  induction reached with
  | start distinct declared => exact ⟨[], Program.opening_tells declared⟩
  | step reached step ih =>
    obtain ⟨live, tells⟩ := ih
    exact step.tells reached tells

theorem Point.StopsIn.final {stop : RunStop} (stops : point.StopsIn config stop last) :
    point.final config = last := by
  obtain ⟨fuel, task, machine⟩ := point
  cases task with
  | stmts | stmt | rounds | expr | exprs | enter => exact final_of_error stops

theorem Reached.distinct (reached : Reached config program fuel sink point) :
    program.block.duplicate? = none := by
  induction reached with
  | start distinct declared => exact distinct
  | step reached step ih => exact ih

/-- An activation that a run refuses is refused before it has its scope: its declarations do not
fail. -/
theorem Reached.refused
    (reached : Reached config program fuel sink ⟨depth + 1, .enter closure args, machine⟩)
    (refuses : Refuses config closure args machine cause) :
    ∃ other, activate config (depth + 1) closure args machine = .error (.fault other) machine := by
  rw [activate_succ]
  by_cases full : config.maxCallDepth ≤ machine.callDepth
  · exact ⟨_, if_pos full⟩
  rw [if_neg full]
  cases home : machine.store.scope? closure.home with
  | none => exact ⟨_, rfl⟩
  | some scope =>
    cases framed : closure.routine.heading.frame
        (machine.store.inner closure.name closure.home) args with
    | error other => exact ⟨other, rfl⟩
    | ok frame =>
      exfalso
      cases refuses with
      | depth room => exact full room
      | home gone =>
        rw [home] at gone
        cases gone
      | frame failed =>
        rw [framed] at failed
        cases failed
      | declarations framed failed =>
        have distinct := Program.duplicate?_eq_none_iff.mp reached.distinct
        have admits := reached.admits distinct
        exact admits.not_refuses (Refuses.declarations framed failed : Refuses config _ _ _ _)

/-- Where the code has a fault of its own, the events so far tell which activations are live. -/
theorem Raises.tells (raises : Raises config point cause)
    (reached : Reached config program fuel sink point) :
    ∃ live other last, point.StopsIn config (.fault other) last ∧
      last.Tells program config.maxCallDepth live := by
  obtain ⟨live, tells⟩ := reached.tells
  obtain ⟨level, around, placed⟩ := reached.placed
  have law := Machine.Brackets.completion config program fuel sink
  rcases law.raises reached raises with
    ⟨before, last, brackets, stops, store, events⟩ | ⟨depth, closure, args, machine, rfl, refuses⟩
  · have evolves : point.machine.store.Evolves _ (point.final config).store := placed.final_evolves
    rw [stops.final, store] at evolves
    obtain ⟨noted, scopes⟩ := tells.completes evolves brackets
    refine ⟨live, cause, last, stops, ?_, ?_⟩
    · rwa [events]
    · rwa [store]
  · obtain ⟨other, stops⟩ := reached.refused refuses
    exact ⟨live, other, machine, stops, tells⟩

theorem Reached.call_noted {value : Option Value}
    (reached : Reached config program fuel sink ⟨depth, .enter closure args, before⟩)
    (run : activate config depth closure args before = .ok value after) :
    ∃ inside, after.events.reverse = before.events.reverse ++
        closure.routine.entry before.store.size :: (inside ++ [closure.routine.exit value]) ∧
      Bracketed program config.maxCallDepth before.store.size inside ∧
      closure.routine.heading.Gives value := by
  cases depth with
  | zero => cases run
  | succ depth =>
    obtain ⟨begun, last, begins, body, rfl⟩ := activate_ok run
    have law := Machine.Brackets.completion config program fuel sink
    have brackets := law.completes (reached.step (.enter begins)) body
    obtain ⟨inside, noted, whole, -, gives⟩ := reached.call_brackets begins body brackets
    rw [activate_of_begins begins, body] at run
    cases run
    refine ⟨inside, ?_, whole, gives⟩
    rw [List.reverse_cons, noted, List.append_assoc, List.cons_append]
    rfl

/-- A run that succeeds has made its declarations, and then completed its statements. -/
theorem Program.run_succeeds {snapshot : Snapshot}
    (ended : (program.run config fuel sink).outcome = .ok snapshot) :
    ∃ inside, (program.run config fuel sink).events =
        .runStart program.name.name :: (inside ++ [.runFinished program.name.name]) ∧
      Bracketed program config.maxCallDepth 0 inside := by
  cases check : program.block.duplicate? with
  | some name =>
    rw [Program.run_of_duplicate config fuel sink check] at ended
    cases ended
  | none =>
    obtain ⟨machine, declared⟩ := declared_of_distinct check sink
    rcases Program.run_of_declared config fuel check declared with
      ⟨last, body, same⟩ | ⟨stop, last, -, same⟩
    · have reached : Reached config program fuel sink ⟨fuel, .stmts program.block.body, machine⟩ :=
        .start check declared
      obtain ⟨level, around, placed⟩ := reached.placed
      have law := Machine.Brackets.completion config program fuel sink
      have evolves : machine.store.Evolves machine.chain last.store := by
        rw [← final_of_ok body]
        exact placed.final_evolves
      have tells := (Program.opening_tells declared).completes evolves (law.completes reached body)
      obtain ⟨noted, front, pending⟩ := tells.noted
      cases pending with
      | none whole =>
        refine ⟨noted, ?_, whole⟩
        rw [same, List.reverse_cons, front, List.cons_append]
    · rw [same] at ended
      cases ended

/-- The calls of a run are bracketed by their events. In a run that succeeds the events between the
first and the last are those of calls that have all ended: each activation is noted by an entry with
the number of activations that are live from then on, never more than the limit, and by an exit of
the same routine with what it gives, and these lie properly in each other. A call that gives a value
notes just this value. In a run that fails, the events are the front of such a sequence; the
activations that they leave open are those that are live where the code has the fault, and nothing is
noted after that. -/
theorem calls_bracketed (config : Config) (program : Program) (fuel : Nat) (sink : Sink) :
    (∀ snapshot, (program.run config fuel sink).outcome = .ok snapshot →
      ∃ inside, (program.run config fuel sink).events =
          .runStart program.name.name :: (inside ++ [.runFinished program.name.name]) ∧
        Bracketed program config.maxCallDepth 0 inside) ∧
    (∀ depth closure args before value after,
      Reached config program fuel sink ⟨depth, .enter closure args, before⟩ →
      activate config depth closure args before = .ok value after →
        ∃ inside, after.events.reverse = before.events.reverse ++
            closure.routine.entry before.store.size :: (inside ++ [closure.routine.exit value]) ∧
          Bracketed program config.maxCallDepth before.store.size inside ∧
          closure.routine.heading.Gives value) ∧
    ∀ cause, (program.run config fuel sink).outcome = .error (.fault cause) →
      ∃ live noted, (program.run config fuel sink).events = .runStart program.name.name :: noted ∧
        Unclosed program config.maxCallDepth 0 live noted ∧
        (∃ rest, Bracketed program config.maxCallDepth 0 (noted ++ rest)) ∧
        ((∃ name, program.block.duplicate? = some name ∧ live = []) ∨
          ∃ point last, Reached config program fuel sink point ∧ Raises config point cause ∧
            point.StopsIn config (.fault cause) last ∧ last.store.Stacks live ∧
            (program.run config fuel sink).events = last.events.reverse) := by
  refine ⟨?_, ?_, ?_⟩
  · exact fun snapshot ended => Program.run_succeeds ended
  · exact fun depth closure args before value after reached run => reached.call_noted run
  · intro cause ended
    rcases Program.run_raised ended with ⟨name, found, rfl⟩ | ⟨point, reached, raises⟩
    · rw [Program.run_of_duplicate config fuel sink found]
      exact ⟨[], [], rfl, .none .nil, ⟨[], .nil⟩, .inl ⟨name, found, rfl⟩⟩
    · obtain ⟨live, other, last, stops, ⟨noted, front, pending⟩, scopes⟩ := raises.tells reached
      have report := reached.stopsIn stops
      rw [report] at ended
      cases ended
      rw [report]
      exact ⟨live, noted, front, pending, pending.closes,
        .inr ⟨point, last, reached, raises, stops, scopes, rfl⟩⟩

end

/-- A call in a call of a run that succeeds, and a run that fails with two activations open. -/
theorem calls_bracketed_nested :
    (∃ inside, (shadowing.run .default 2 (.empty none)).events =
        .runStart "Main" :: (inside ++ [.runFinished "Main"]) ∧
      Bracketed shadowing Config.default.maxCallDepth 0 inside ∧
      .enter .procedure "Show" 2 ∈ inside) ∧
    ∃ live noted, (endless.run ⟨2⟩ 3 (.empty none)).events = .runStart "Main" :: noted ∧
      Unclosed endless 2 0 live noted ∧
      noted.getLast? = some (.enter .procedure "Again" 2) := by
  obtain ⟨succeeds, -, -⟩ := calls_bracketed .default shadowing 2 (.empty none)
  obtain ⟨-, -, fails⟩ := calls_bracketed ⟨2⟩ endless 3 (.empty none)
  have ended : (endless.run ⟨2⟩ 3 (.empty none)).outcome = .error (.fault (.recursionLimit 2)) := by
    cbv
  have latest : (endless.run ⟨2⟩ 3 (.empty none)).events.tail.getLast? =
      some (.enter .procedure "Again" 2) := by cbv
  obtain ⟨inside, events, whole⟩ := succeeds _ (by cbv)
  obtain ⟨live, noted, events', pending, -⟩ := fails _ ended
  refine ⟨⟨inside, events, whole, ?_⟩, live, noted, events', pending, ?_⟩
  · have fifth : (shadowing.run .default 2 (.empty none)).events[4]? =
        some (.enter .procedure "Show" 2) := by cbv
    have nested := List.mem_of_getElem? fifth
    rw [events] at nested
    simpa using nested
  · rw [events'] at latest
    exact latest

end MiniPascal
