import MiniPascal.Proofs.Run.Assignments
import MiniPascal.Proofs.Run.Sessions

namespace MiniPascal

open MiniPascal.Action

/-- The writes of a run that completes: those of its statements, once its declarations are made. -/
def Program.Writes (config : Config) (fuel : Nat) (sink : Sink) (program : Program)
    (log : List Write) : Prop :=
  ∃ machine, declareAll program.block.declarations
      ⟨.initial, sink, [.runStart program.name.name]⟩ = .ok () machine ∧
    Point.Writes config ⟨fuel, .stmts program.block.body, machine⟩ log

/-- The variables of a type that the outermost block declares, in the order of their declaration. -/
def Program.globals (program : Program) (type : VarType) : List String :=
  ((program.block.declarations.filterMap Decl.var?).filter (·.2 = type)).map Prod.fst

/-- The variables of a type of the outermost block that take a value in a log, with the last one. -/
def Program.assigned (program : Program) (log : List Write) (type : VarType) :
    List (String × Value) :=
  (program.globals type).filterMap fun name => (Write.last? log 0 name).map (name, ·)

/-- The variables that a snapshot lists, kind after kind. -/
def Snapshot.entries (snapshot : Snapshot) : List (String × Value) :=
  snapshot.integers.map (Prod.map id .integer) ++ snapshot.reals.map (Prod.map id .real) ++
    snapshot.booleans.map (Prod.map id .boolean) ++ snapshot.texts.map (Prod.map id .text)

/-- A value as a snapshot shows it. -/
def Value.shown : Value → String
  | .integer value => toString value.toInt
  | .real value => Layout.plain.text value
  | .boolean value => if value then "true" else "false"
  | .text value => "'" ++ value ++ "'"

def Value.toJson : Value → Json
  | .integer value => .int value.toInt
  | .real value => .ofReal value
  | .boolean value => .bool value
  | .text value => .str value

/-- The line of a variable. -/
def Snapshot.line (entry : String × Value) : String :=
  entry.1 ++ ": " ++ entry.2.kind.name ++ " = " ++ entry.2.shown ++ "\n"

/-- Looking up a name finds what is listed under it. -/
def Snapshot.Agrees {α : Type} (entries : List (String × α)) : Prop :=
  ∀ name value, Snapshot.lookup? entries name = some value ↔ (name, value) ∈ entries

/-- A snapshot that lists exactly the variables of the outermost block to which the log writes. -/
structure Snapshot.Lists (program : Program) (log : List Write) (snapshot : Snapshot) : Prop where
  integers : snapshot.integers.map (Prod.map id .integer) = program.assigned log .integer
  reals : snapshot.reals.map (Prod.map id .real) = program.assigned log .real
  booleans : snapshot.booleans = []
  texts : snapshot.texts = []
  once : (snapshot.entries.map Prod.fst).Nodup
  noRoutine : ∀ entry ∈ snapshot.entries, ∀ routine ∈ program.level.routines,
    routine.heading.name.name ≠ entry.1

/-- The views of a snapshot, which show the same entries in the same order. -/
structure Snapshot.Consistent (snapshot : Snapshot) : Prop where
  integers : Snapshot.Agrees snapshot.integers
  reals : Snapshot.Agrees snapshot.reals
  booleans : Snapshot.Agrees snapshot.booleans
  texts : Snapshot.Agrees snapshot.texts
  text : snapshot.text = String.join (snapshot.entries.map Snapshot.line)
  json : ∃ integers reals booleans texts : List (String × Json),
    snapshot.toJson = .obj [("integers", .obj integers), ("reals", .obj reals),
      ("booleans", .obj booleans), ("strings", .obj texts)] ∧
    integers ++ reals ++ booleans ++ texts = snapshot.entries.map (Prod.map id Value.toJson)

section

variable {α : Type} {snapshot : Snapshot} {binding : Binding} {bindings : List Binding}

theorem Snapshot.agrees_of_nodup {entries : List (String × α)}
    (distinct : (entries.map Prod.fst).Nodup) : Snapshot.Agrees entries := by
  intro name value
  rw [Snapshot.lookup?]
  constructor
  · intro found
    obtain ⟨⟨other, own⟩, first, rfl⟩ := Option.map_eq_some_iff.mp found
    have named := List.find?_some first
    obtain rfl : other = name := by simpa using named
    exact List.mem_of_find?_eq_some first
  · intro listed
    obtain ⟨entry, first⟩ : ∃ entry, entries.find? (·.1 == name) = some entry :=
      Option.isSome_iff_exists.mp (List.find?_isSome.mpr ⟨_, listed, by simp⟩)
    have named := List.find?_some first
    have member := List.mem_of_find?_eq_some first
    obtain rfl : entry = (name, value) :=
      List.inj_on_of_nodup_map distinct member listed (by simpa using named)
    rw [first]
    rfl

theorem Snapshot.text_eq (snapshot : Snapshot) :
    snapshot.text = String.join (snapshot.entries.map Snapshot.line) := by
  simp only [Snapshot.text, Snapshot.entries, List.map_append, List.map_map]
  rfl

theorem Snapshot.json_eq (snapshot : Snapshot) :
    ∃ integers reals booleans texts : List (String × Json),
      snapshot.toJson = .obj [("integers", .obj integers), ("reals", .obj reals),
        ("booleans", .obj booleans), ("strings", .obj texts)] ∧
      integers ++ reals ++ booleans ++ texts = snapshot.entries.map (Prod.map id Value.toJson) := by
  refine ⟨_, _, _, _, rfl, ?_⟩
  simp only [Snapshot.entries, List.map_append, List.map_map]
  rfl

/-- Where every variable holds a value of its type, the variables of one type hold one kind of
value. -/
theorem Binding.filterMap_typed {pick : Binding → Option (String × α)} {wrap : α → Value}
    {type : VarType}
    (picks : ∀ binding : Binding, binding.Typed → (pick binding).map (Prod.map id wrap) =
      if binding.type = type then binding.value.map (binding.name, ·) else none)
    (typed : ∀ binding ∈ bindings, binding.Typed) :
    (bindings.filterMap pick).map (Prod.map id wrap) =
      (bindings.filter (·.type = type)).filterMap fun binding =>
        binding.value.map (binding.name, ·) := by
  rw [List.map_filterMap, List.filterMap_filter]
  refine List.filterMap_congr fun binding listed => ?_
  rw [picks binding (typed binding listed)]
  simp

theorem Binding.integer?_typed (typed : binding.Typed) :
    binding.integer?.map (Prod.map id .integer) =
      if binding.type = .integer then binding.value.map (binding.name, ·) else none := by
  obtain ⟨name, type, held⟩ := binding
  rcases held with _ | value
  · cases type <;> rfl
  · have fits := typed value rfl
    cases type <;> cases value <;> first | rfl | cases fits

theorem Binding.real?_typed (typed : binding.Typed) :
    binding.real?.map (Prod.map id .real) =
      if binding.type = .real then binding.value.map (binding.name, ·) else none := by
  obtain ⟨name, type, held⟩ := binding
  rcases held with _ | value
  · cases type <;> rfl
  · have fits := typed value rfl
    cases type <;> cases value <;> first | rfl | cases fits

/-- No variable is of a type whose values are booleans or texts. -/
theorem Binding.Typed.neither (typed : binding.Typed) :
    binding.boolean? = none ∧ binding.text? = none := by
  obtain ⟨name, type, held⟩ := binding
  rcases held with _ | value
  · exact ⟨rfl, rfl⟩
  · have fits := typed value rfl
    cases type <;> cases value <;> first | exact ⟨rfl, rfl⟩ | cases fits

end

section

variable {config : Config} {program : Program} {fuel : Nat} {sink : Sink} {log : List Write}
  {machine last : Machine} {snapshot : Snapshot} {name : String} {type other : VarType}

theorem Program.mem_globals : name ∈ program.globals type ↔
    (name, type) ∈ program.block.declarations.filterMap Decl.var? := by
  simp only [Program.globals, List.mem_map, List.mem_filter, decide_eq_true_eq]
  constructor
  · rintro ⟨⟨other, own⟩, ⟨listed, rfl⟩, rfl⟩
    exact listed
  · intro listed
    exact ⟨(name, type), ⟨listed, rfl⟩, rfl⟩

/-- The global scope of a run as its declarations make it. -/
theorem Program.opening_scope
    (declared : declareAll program.block.declarations
      ⟨.initial, sink, [.runStart program.name.name]⟩ = .ok () machine) :
    machine.store.size = 1 ∧
      machine.store.scope? 0 = some (Scope.global.addAll 0 program.block.declarations) := by
  have made := declareAll_push ⟨#[]⟩ .global sink [.runStart program.name.name]
    program.block.declarations
  have opening : declareAll program.block.declarations
      ⟨Store.push ⟨#[]⟩ .global, sink, [.runStart program.name.name]⟩ = .ok () machine := declared
  rw [opening] at made
  cases made with
  | all sound => exact ⟨rfl, rfl⟩

theorem Scope.bindings_addAll {id : ScopeId} (scope : Scope) (declarations : List Decl) :
    (scope.addAll id declarations).bindings =
      scope.bindings ++ (declarations.filterMap Decl.var?).map fun (name, type) =>
        ⟨name, type, none⟩ := by
  induction declarations generalizing scope with
  | nil => simp [Scope.addAll]
  | cons first rest ih =>
    refine (ih (scope.add id first)).trans ?_
    cases first <;> simp [Scope.add, List.filterMap_cons, Decl.var?]

/-- At the end of a run the variables of the global scope hold the last values that they took. -/
theorem Program.final_scope (distinct : program.block.duplicate? = none)
    (declared : declareAll program.block.declarations
      ⟨.initial, sink, [.runStart program.name.name]⟩ = .ok () machine)
    (body : execAll (activate config fuel) fuel program.block.body machine = .ok () last)
    (writes : Point.Writes config ⟨fuel, .stmts program.block.body, machine⟩ log) :
    ∃ scope, last.store.scope? last.current = some scope ∧
      (∀ binding ∈ scope.bindings, binding.Typed) ∧
      scope.bindings = (program.block.declarations.filterMap Decl.var?).map fun (name, type) =>
        ⟨name, type, Write.last? log 0 name⟩ := by
  have reached : Reached config program fuel sink ⟨fuel, .stmts program.block.body, machine⟩ :=
    .start distinct declared
  have ended : Point.final config ⟨fuel, .stmts program.block.body, machine⟩ = last :=
    final_of_ok body
  obtain ⟨level, around, placed⟩ := reached.placed
  have evolves : machine.store.Evolves machine.chain last.store := ended ▸ placed.final_evolves
  have orderly := (Visited.after reached).satisfies (Store.Invariant.orderly config)
  rw [ended] at orderly
  obtain ⟨size, opened⟩ := Program.opening_scope declared
  have current : last.current = 0 := by
    rw [Machine.current, evolves.size, size]
  have found := writes.replays body opened
  refine ⟨_, current ▸ found, orderly.typed 0 _ found, ?_⟩
  rw [Scope.bindings_replay, Scope.bindings_addAll, List.map_append, List.map_map]
  simp [Scope.global]

theorem Decl.names_sublist (declarations : List Decl) :
    ((declarations.filterMap Decl.var?).map Prod.fst).Sublist (Decl.names declarations) := by
  induction declarations with
  | nil => exact .slnil
  | cons first rest ih =>
    cases first with
    | var name type => exact ih.cons_cons _
    | routine heading declarations body => exact ih.cons _

theorem Decl.var_ne_routine {declarations : List Decl} {routine : Routine}
    (distinct : (Decl.names declarations).Nodup)
    (listed : (name, type) ∈ declarations.filterMap Decl.var?)
    (declared : routine ∈ declarations.filterMap Decl.routine?) :
    routine.heading.name.name ≠ name := by
  intro same
  obtain ⟨first, here, var⟩ := List.mem_filterMap.mp listed
  obtain ⟨second, there, body⟩ := List.mem_filterMap.mp declared
  cases first with
  | routine heading declarations body => cases var
  | var ident type =>
    cases second with
    | var other own => cases body
    | routine heading declarations block =>
      cases var
      cases body
      cases List.inj_on_of_nodup_map distinct here there same.symm

theorem Program.mem_assigned {entry : String × Value} (listed : entry ∈ program.assigned log type) :
    (entry.1, type) ∈ program.block.declarations.filterMap Decl.var? := by
  obtain ⟨name, member, taken⟩ := List.mem_filterMap.mp listed
  obtain ⟨value, -, rfl⟩ := Option.map_eq_some_iff.mp taken
  exact Program.mem_globals.mp member

theorem Program.map_fst_assigned (program : Program) (log : List Write) (type : VarType) :
    (program.assigned log type).map Prod.fst =
      (program.globals type).filter fun name => (Write.last? log 0 name).isSome := by
  rw [Program.assigned, List.map_filterMap, ← List.filterMap_eq_filter]
  refine List.filterMap_congr fun name _ => ?_
  cases taken : Write.last? log 0 name with
  | none => simp [Option.guard, taken]
  | some value => simp [Option.guard, taken]

/-- The outermost block declares a name once, with one type, so no name is listed twice. -/
theorem Program.assigned_nodup (distinct : (Decl.names program.block.declarations).Nodup)
    (log : List Write) :
    ((program.assigned log .integer ++ program.assigned log .real).map Prod.fst).Nodup := by
  have vars := distinct.sublist (Decl.names_sublist program.block.declarations)
  have named (type : VarType) : ((program.assigned log type).map Prod.fst).Nodup := by
    rw [Program.map_fst_assigned]
    exact (vars.sublist (List.filter_sublist.map Prod.fst)).filter _
  rw [List.map_append]
  refine List.nodup_append.mpr ⟨named .integer, named .real, ?_⟩
  rintro name first other second rfl
  obtain ⟨⟨_, _⟩, whole, rfl⟩ := List.mem_map.mp first
  obtain ⟨⟨_, _⟩, real, same⟩ := List.mem_map.mp second
  have typed := List.inj_on_of_nodup_map vars (Program.mem_assigned whole)
    (Program.mem_assigned real) same.symm
  cases congrArg Prod.snd typed

theorem Program.lists_of_bindings {scope : Scope}
    (distinct : (Decl.names program.block.declarations).Nodup)
    (typed : ∀ binding ∈ scope.bindings, binding.Typed)
    (held : scope.bindings = (program.block.declarations.filterMap Decl.var?).map
      fun (name, type) => ⟨name, type, Write.last? log 0 name⟩) :
    (Snapshot.ofScope scope).Lists program log := by
  have ofType (type : VarType) : ((scope.bindings.filter (·.type = type)).filterMap fun binding =>
      binding.value.map (binding.name, ·)) = program.assigned log type := by
    rw [held, List.filter_map, List.filterMap_map, Program.assigned, Program.globals,
      List.filterMap_map]
    rfl
  have integers := Binding.filterMap_typed (fun _ => Binding.integer?_typed) typed
  have reals := Binding.filterMap_typed (fun _ => Binding.real?_typed) typed
  rw [ofType] at integers reals
  have booleans : (Snapshot.ofScope scope).booleans = [] :=
    List.filterMap_eq_nil_iff.mpr fun binding listed => (typed binding listed).neither.1
  have texts : (Snapshot.ofScope scope).texts = [] :=
    List.filterMap_eq_nil_iff.mpr fun binding listed => (typed binding listed).neither.2
  have entries : (Snapshot.ofScope scope).entries =
      program.assigned log .integer ++ program.assigned log .real := by
    rw [Snapshot.entries, booleans, texts, ← integers, ← reals]
    simp [Snapshot.ofScope]
  refine ⟨integers, reals, booleans, texts, ?_, ?_⟩
  · rw [entries]
    exact Program.assigned_nodup distinct log
  · intro entry listed routine declared
    rw [entries] at listed
    rcases List.mem_append.mp listed with whole | real
    · exact Decl.var_ne_routine distinct (Program.mem_assigned whole) declared
    · exact Decl.var_ne_routine distinct (Program.mem_assigned real) declared

theorem Snapshot.Lists.consistent (lists : snapshot.Lists program log) : snapshot.Consistent := by
  have once := lists.once
  rw [Snapshot.entries, lists.booleans, lists.texts] at once
  simp only [List.map_append, List.map_map, List.map_nil, List.append_nil] at once
  obtain ⟨integers, reals, -⟩ := List.nodup_append.mp once
  refine ⟨Snapshot.agrees_of_nodup integers, Snapshot.agrees_of_nodup reals, ?_, ?_,
    snapshot.text_eq, snapshot.json_eq⟩
  · rw [lists.booleans]
    exact Snapshot.agrees_of_nodup List.nodup_nil
  · rw [lists.texts]
    exact Snapshot.agrees_of_nodup List.nodup_nil

end

/-- The final variables of a run. A run that succeeds has a log of what it wrote, in order, and
there stands for the outermost block exactly what assignments of the run stored in it. The snapshot
lists those variables of the outermost block that take a value in the log, integers and reals apart,
as they are declared and with the last value. It lists nothing else, and its views agree. -/
theorem final_variables_exact {session : Session} {fuel : Nat} {program : Program}
    {snapshot : Snapshot} (run : (session.run fuel program).1.outcome = .ok snapshot) :
    (∃ log, program.Writes session.config fuel session.sink log) ∧
    ∀ log, program.Writes session.config fuel session.sink log →
      (∀ name stored, ⟨0, name, stored⟩ ∈ log ↔
        AssignsGlobal session.config program fuel session.sink name stored) ∧
      snapshot.Lists program log ∧ snapshot.Consistent := by
  rw [session.run_report] at run
  cases distinct : program.block.duplicate? with
  | some name =>
    rw [Program.run_of_duplicate _ _ _ distinct] at run
    cases run
  | none =>
    obtain ⟨machine, declared⟩ := declared_of_distinct distinct session.sink
    have names := Program.duplicate?_eq_none_iff.mp distinct program.level List.mem_cons_self
    rcases Program.run_of_declared session.config fuel distinct declared with
      ⟨last, body, ended⟩ | ⟨stop, last, -, ended⟩
    · rw [ended] at run
      cases run
      constructor
      · have completes : Point.Completes session.config
            ⟨fuel, .stmts program.block.body, machine⟩ last := body
        obtain ⟨log, writes⟩ := completes.writes
        exact ⟨log, machine, declared, writes⟩
      · rintro log ⟨start, opened, writes⟩
        obtain ⟨-, rfl⟩ := ok_unique declared opened
        obtain ⟨scope, found, typed, held⟩ := Program.final_scope distinct declared body writes
        rw [found, Option.getD_some]
        have lists := Program.lists_of_bindings names typed held
        exact ⟨fun name stored => writes.global_iff distinct declared, lists, lists.consistent⟩
    · rw [ended] at run
      cases run

theorem final_variables_exact_shadowing : ∃ snapshot log,
    ((Session.start .default (.empty none)).run 2 shadowing).1.outcome = .ok snapshot ∧
      snapshot.integers = [("x", 1), ("seen", 1)] ∧
      shadowing.Writes .default 2 (.empty none) log ∧ snapshot.Lists shadowing log := by
  have run : ((Session.start .default (.empty none)).run 2 shadowing).1.outcome =
      .ok ⟨[("x", 1), ("seen", 1)], [], [], []⟩ := by cbv
  obtain ⟨⟨log, writes⟩, told⟩ := final_variables_exact run
  obtain ⟨-, lists, -⟩ := told log writes
  exact ⟨_, log, run, rfl, writes, lists⟩

end MiniPascal
