import MiniPascal.Proofs.Run.Endings
import MiniPascal.Proofs.Run.Origin
import MiniPascal.Proofs.Run.Visited

namespace MiniPascal

section

variable {program : Program} {config : Config} {fuel : Nat} {sink : Sink}

theorem Program.run_limit_le {limit wideLimit : Nat} (fuel : Nat) (sink : Sink)
    (le : limit ≤ wideLimit) :
    program.run ⟨limit⟩ fuel sink = program.run ⟨wideLimit⟩ fuel sink ∨
      (program.run ⟨limit⟩ fuel sink).FallsShort (.fault (.recursionLimit limit))
        (program.run ⟨wideLimit⟩ fuel sink) :=
  Program.run_bounded (.inl rfl) (.inr ⟨le, rfl, fun {_ _} same => same ▸ .refl _⟩)

theorem Refuses.recursionLimit {closure : Closure} {args : List Value} {machine : Machine}
    {depth : Nat} (refuses : Refuses config closure args machine (.recursionLimit depth)) :
    depth = config.maxCallDepth ∧ config.maxCallDepth ≤ machine.callDepth := by
  cases refuses with
  | depth full => exact ⟨rfl, full⟩
  | frame failed =>
    rcases Heading.frame_error failed with ⟨mismatch, same⟩ | ⟨⟨name, same⟩, -⟩
    · cases same
    · cases same

theorem Store.Invariant.limited (config : Config) :
    Store.Invariant config fun store => store.size ≤ config.maxCallDepth + 1 where
  empty := Nat.zero_le _
  evolves := fun evolves bounded => evolves.size ▸ bounded
  push := by
    intro below scope room _ _
    rw [Store.size_push]
    omega

theorem Visited.callDepth_le {machine : Machine}
    (visited : Visited config program fuel sink machine) :
    machine.callDepth ≤ config.maxCallDepth := by
  have bounded := visited.satisfies (Store.Invariant.limited config)
  rw [Machine.callDepth]
  omega

/-- A run ends with the limit only where it has as many live activations as the limit allows, and
comes to one more. -/
theorem Program.limit_reached {depth : Nat}
    (ended : (program.run config fuel sink).outcome = .error (.fault (.recursionLimit depth))) :
    depth = config.maxCallDepth ∧ ∃ left closure args machine,
      Reached config program fuel sink ⟨left, .enter closure args, machine⟩ ∧
        machine.callDepth = config.maxCallDepth := by
  rcases Program.run_refused rfl ended with
    ⟨name, -, same⟩ | ⟨left, closure, args, machine, reached, refuses⟩
  · cases same
  · obtain ⟨same, full⟩ := refuses.recursionLimit
    have bounded := (Visited.before reached).callDepth_le
    exact ⟨same, _, closure, args, machine, reached, Nat.le_antisymm bounded full⟩

/-- Under a lower limit a run that meets the limit meets it again, no later. -/
theorem Program.limit_lower {limit wideLimit depth : Nat} (le : limit ≤ wideLimit)
    (ended : (program.run ⟨wideLimit⟩ fuel sink).outcome =
      .error (.fault (.recursionLimit depth))) :
    (program.run ⟨limit⟩ fuel sink).outcome = .error (.fault (.recursionLimit limit)) := by
  rcases Program.run_limit_le fuel sink le with same | short
  · rw [← same] at ended
    obtain ⟨rfl, -⟩ := Program.limit_reached ended
    exact ended
  · exact short.outcome

/-- The limit on live activations is exact, and raising it changes nothing but where it is met. No
more activations than the limit are ever live. A run that ends otherwise than by the limit ends the
same under every higher limit. A run that ends by the limit does so with the limit as the depth,
with that many activations live; under every lower limit it ends so too, and what it has written is
the front of what the run writes under a higher limit, whether that run ends or not. -/
theorem recursion_limit_exact (program : Program) (sink : Sink) {limit wideLimit : Nat}
    (le : limit ≤ wideLimit) :
    (∀ fuel machine, Visited ⟨limit⟩ program fuel sink machine → machine.callDepth ≤ limit) ∧
    (∀ report, program.Ends ⟨limit⟩ sink report →
      (∀ depth, report.outcome ≠ .error (.fault (.recursionLimit depth))) →
        ∀ other, program.Ends ⟨wideLimit⟩ sink other ↔ other = report) ∧
    ∀ report depth, program.Ends ⟨limit⟩ sink report →
      report.outcome = .error (.fault (.recursionLimit depth)) →
        depth = limit ∧
        (∃ fuel left closure args machine,
          Reached ⟨limit⟩ program fuel sink ⟨left, .enter closure args, machine⟩ ∧
            machine.callDepth = limit) ∧
        (∀ lower ≤ limit, (∃ other, program.Ends ⟨lower⟩ sink other) ∧
          ∀ other, program.Ends ⟨lower⟩ sink other →
            other.outcome = .error (.fault (.recursionLimit lower))) ∧
        ∃ enough, ∀ fuel ≥ enough, report.sink.Grows (program.run ⟨wideLimit⟩ fuel sink).sink := by
  refine ⟨fun fuel machine visited => visited.callDepth_le, ?_, ?_⟩
  · rintro report ⟨finished, fuel, rfl⟩ unlimited other
    have same : program.run ⟨limit⟩ fuel sink = program.run ⟨wideLimit⟩ fuel sink := by
      rcases Program.run_limit_le fuel sink le with same | short
      · exact same
      · exact absurd short.outcome (unlimited limit)
    have ends : program.Ends ⟨wideLimit⟩ sink (program.run ⟨limit⟩ fuel sink) :=
      ⟨finished, fuel, same.symm⟩
    constructor
    · exact fun other => other.unique ends
    · rintro rfl
      exact ends
  · rintro report depth ⟨finished, fuel, rfl⟩ ended
    obtain ⟨same, left, closure, args, machine, reached, full⟩ := Program.limit_reached ended
    refine ⟨same, ⟨fuel, left, closure, args, machine, reached, full⟩, ?_, fuel, ?_⟩
    · intro lower below
      have met := Program.limit_lower below ended
      have ends : program.Ends ⟨lower⟩ sink (program.run ⟨lower⟩ fuel sink) :=
        ⟨by rw [met]; simp, fuel, rfl⟩
      exact ⟨⟨_, ends⟩, fun other ends' => ends'.unique ends ▸ met⟩
    · intro more enough
      have wider : (program.run ⟨limit⟩ fuel sink).sink.Grows
          (program.run ⟨wideLimit⟩ fuel sink).sink := by
        rcases Program.run_limit_le fuel sink le with same | short
        · rw [same]
          exact .refl _
        · exact short.written
      rcases Program.run_fuel_le ⟨wideLimit⟩ sink enough with same | short
      · rw [← same]
        exact wider
      · exact wider.trans short.written

end

/-- A procedure that writes a line and calls itself, without end. -/
def endless : Program where
  name := ⟨"Main", .point 0⟩
  block := {
    declarations := [
      .routine ⟨⟨"Again", .point 0⟩, [], none, .point 0⟩ []
        [.call ⟨"writeln", .point 0⟩ [.text "again" (.point 0)] (.point 0),
          .call ⟨"Again", .point 0⟩ [] (.point 0)]]
    body := [.call ⟨"Again", .point 0⟩ [] (.point 0)] }

theorem recursion_limit_exact_endless : ∃ report enough,
    endless.Ends ⟨1⟩ (.empty none) report ∧
      report.outcome = .error (.fault (.recursionLimit 1)) ∧
      report.sink.taken.size = 6 ∧
      ∀ fuel ≥ enough, report.sink.Grows (endless.run ⟨2⟩ fuel (.empty none)).sink := by
  have ended : (endless.run ⟨1⟩ 2 (.empty none)).outcome = .error (.fault (.recursionLimit 1)) := by
    cbv
  have written : (endless.run ⟨1⟩ 2 (.empty none)).sink.taken.size = 6 := by cbv
  have ends : endless.Ends ⟨1⟩ (.empty none) (endless.run ⟨1⟩ 2 (.empty none)) :=
    ⟨by rw [ended]; simp, 2, rfl⟩
  have limited := recursion_limit_exact endless (.empty none) (Nat.le_succ 1)
  obtain ⟨-, -, -, enough, grows⟩ := limited.2.2 _ 1 ends ended
  exact ⟨_, enough, ends, ended, written, grows⟩

end MiniPascal
