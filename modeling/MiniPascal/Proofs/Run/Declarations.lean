import MiniPascal.Proofs.Run.Lexical
import MiniPascal.Proofs.Run.Origin
import MiniPascal.Proofs.Static.Duplicates

namespace MiniPascal

open MiniPascal.Action

/-- An activation makes all its declarations: no parameter, result, variable or routine of it fails
for a name that is taken. -/
structure Machine.Admits (machine : Machine) (closure : Closure) (args : List Value) : Prop where
  bound : ∀ name, closure.routine.heading.frame
    (machine.store.inner closure.name closure.home) args ≠ .error (.duplicateDeclaration name)
  declared : ∀ frame, closure.routine.heading.frame
    (machine.store.inner closure.name closure.home) args = .ok frame →
      ∃ made, declareAll closure.routine.block.declarations
        ⟨machine.store.push frame, machine.sink,
          .enter closure.routine.heading.kind closure.name machine.store.size ::
            machine.events⟩ = .ok () made

section

variable {config : Config} {program : Program} {fuel depth : Nat} {sink : Sink} {name : String}
  {closure : Closure} {args : List Value} {machine : Machine}

/-- A routine that a run enters is one of the program text. -/
theorem Reached.level_mem
    (reached : Reached config program fuel sink ⟨depth, .enter closure args, machine⟩) :
    closure.routine.level ∈ program.levels := by
  obtain ⟨level, around, placed⟩ := reached.placed
  obtain ⟨out, resolves, -, -⟩ := placed.enters closure args rfl
  obtain ⟨owner, atOwner, known⟩ := resolve_some resolves
  obtain ⟨outer, -, nests⟩ := placed.nests.drop atOwner
  exact (nests.routine (List.mem_of_find?_eq_some known)).mem_levels

/-- An activation of a block whose names are distinct makes all its declarations. -/
theorem Machine.admits_of_nodup (machine : Machine)
    (distinct : closure.routine.level.names.Nodup)
    (arity : closure.routine.heading.params.length = args.length) :
    machine.Admits closure args := by
  obtain ⟨bound, names, apart⟩ := List.nodup_append.mp distinct
  constructor
  · intro name failed
    rcases Heading.frame_error failed with ⟨mismatch, same⟩ | ⟨-, again⟩
    · cases same
    · exact again bound
  · intro frame framed
    obtain ⟨vars, binds, exactly⟩ := Heading.frame_binds machine.store.size
      (Scope.sound_of_empty closure.name (machine.store.chain closure.home)) framed
    have fresh : ∀ name ∈ Decl.names closure.routine.block.declarations, name ∉ frame.names := by
      intro name declared taken
      rcases binds.mem_names.mp taken with old | new
      · simp [Scope.names] at old
      · rw [exactly arity] at new
        exact apart name new name declared rfl
    obtain ⟨noted, made⟩ := declareAll_ok machine.store machine.sink
      (.enter closure.routine.heading.kind closure.name machine.store.size :: machine.events)
      names fresh
    exact ⟨_, made⟩

theorem Reached.admits (distinct : ∀ level ∈ program.levels, level.names.Nodup)
    (reached : Reached config program fuel sink ⟨depth, .enter closure args, machine⟩) :
    machine.Admits closure args := by
  obtain ⟨level, around, placed⟩ := reached.placed
  obtain ⟨out, -, -, arity⟩ := placed.enters closure args rfl
  exact machine.admits_of_nodup (distinct _ reached.level_mem) arity

theorem Machine.Admits.not_refuses (admits : machine.Admits closure args) :
    ¬ Refuses config closure args machine (.duplicateDeclaration name) := by
  intro refuses
  cases refuses with
  | frame failed => exact admits.bound name failed
  | declarations framed failed =>
    obtain ⟨made, declared⟩ := admits.declared _ framed
    rw [declared] at failed
    cases failed

/-- A run ends with a duplicate exactly when the check with which it begins finds it. -/
theorem Program.run_duplicate_iff :
    (program.run config fuel sink).outcome = .error (.fault (.duplicateDeclaration name)) ↔
      program.block.duplicate? = some name := by
  constructor
  · intro ended
    cases check : program.block.duplicate? with
    | some other =>
      rw [Program.run_of_duplicate config fuel sink check] at ended
      cases ended
      rfl
    | none =>
      have distinct := Program.duplicate?_eq_none_iff.mp check
      rcases Program.run_refused rfl ended with ⟨other, found, -⟩ | refused
      · rw [check] at found
        cases found
      · obtain ⟨depth, closure, args, machine, reached, refuses⟩ := refused
        exact absurd refuses (reached.admits distinct).not_refuses
  · intro found
    rw [Program.run_of_duplicate config fuel sink found]

/-- The check with which a run begins foretells every declaration that the run makes. The run ends
with a duplicate exactly when some block of the program, at any depth, repeats one of the names that
an activation of it declares; the duplicate is then the first in the first such block, and nothing
was declared, entered or written. Otherwise no declaration fails, neither a global one nor one of
any activation. -/
theorem duplicates_foretold (config : Config) (program : Program) (fuel : Nat) (sink : Sink) :
    ((∃ name, (program.run config fuel sink).outcome =
        .error (.fault (.duplicateDeclaration name))) ↔
      ∃ level ∈ program.levels, ¬ level.names.Nodup) ∧
    (∀ name, (program.run config fuel sink).outcome =
        .error (.fault (.duplicateDeclaration name)) →
      program.FirstDuplicate name ∧ (program.run config fuel sink).sink = sink ∧
        (program.run config fuel sink).events = [.runStart program.name.name]) ∧
    ((∀ level ∈ program.levels, level.names.Nodup) →
      (∃ made, declareAll program.block.declarations
        ⟨.initial, sink, [.runStart program.name.name]⟩ = .ok () made) ∧
      ∀ depth closure args machine,
        Reached config program fuel sink ⟨depth, .enter closure args, machine⟩ →
          machine.Admits closure args) := by
  refine ⟨?_, ?_, ?_⟩
  · simp only [Program.run_duplicate_iff, ← Option.isSome_iff_exists]
    rw [← Option.ne_none_iff_isSome, Ne, Program.duplicate?_eq_none_iff]
    simp only [not_forall, exists_prop]
  · intro name ended
    have found := Program.run_duplicate_iff.mp ended
    rw [Program.run_of_duplicate config fuel sink found]
    exact ⟨Program.firstDuplicate found, rfl, rfl⟩
  · intro distinct
    refine ⟨declared_of_distinct (Program.duplicate?_eq_none_iff.mpr distinct) sink, ?_⟩
    exact fun depth closure args machine reached => reached.admits distinct

end

/-- Two routines repeat a name, and neither is called: one inside another, which declares a variable
with the name of its parameter, and a later one, which has two parameters of one name. -/
def uncalled : Program where
  name := ⟨"Main", .point 0⟩
  block := {
    declarations := [
      .routine ⟨⟨"Outer", .point 0⟩, [], none, .point 0⟩
        [.routine ⟨⟨"Inner", .point 0⟩, [⟨⟨"x", .point 0⟩, .integer⟩], none, .point 0⟩
          [.var ⟨"x", .point 0⟩ .real] []]
        [],
      .routine ⟨⟨"Later", .point 0⟩,
        [⟨⟨"y", .point 0⟩, .integer⟩, ⟨⟨"y", .point 0⟩, .integer⟩], none, .point 0⟩ [] []]
    body := [] }

theorem duplicates_foretold_uncalled :
    (∃ level ∈ uncalled.levels, ¬ level.names.Nodup) ∧ uncalled.FirstDuplicate "x" ∧
      (∀ level ∈ shadowing.levels, level.names.Nodup) ∧ ∃ closure machine,
        Reached .default shadowing 2 (.empty none) ⟨2, .enter closure [], machine⟩ ∧
          machine.Admits closure [] := by
  obtain ⟨found, named, -⟩ := duplicates_foretold .default uncalled 0 (.empty none)
  have ended : (uncalled.run .default 0 (.empty none)).outcome =
      .error (.fault (.duplicateDeclaration "x")) := by cbv
  have distinct : ∀ level ∈ shadowing.levels, level.names.Nodup :=
    Program.duplicate?_eq_none_iff.mp (by decide)
  have start := @Reached.start .default shadowing 2 (.empty none) _ (by decide) (by cbv)
  have atCaller := ((start.step (.rest (by cbv))).step .first).step (.stmtCall (by cbv) (by cbv))
  obtain ⟨-, -, admits⟩ := duplicates_foretold .default shadowing 2 (.empty none)
  exact ⟨found.mp ⟨"x", ended⟩, (named "x" ended).1, distinct, _, _, atCaller,
    (admits distinct).2 _ _ _ _ atCaller⟩

end MiniPascal
