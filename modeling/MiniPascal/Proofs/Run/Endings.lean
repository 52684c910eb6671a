import MiniPascal.Proofs.Run.Shortfall

namespace MiniPascal

/-- A report of a run that ended early, next to one of a run that went on from there. -/
structure RunReport.FallsShort (stop : RunStop) (low high : RunReport) : Prop where
  outcome : low.outcome = .error stop
  written : low.sink.Grows high.sink
  noted : low.events <+: high.events

/-- The run ends with this report, after however many activations and rounds. -/
def Program.Ends (program : Program) (config : Config) (sink : Sink) (report : RunReport) : Prop :=
  report.outcome ≠ .error .outOfFuel ∧ ∃ fuel, program.run config fuel sink = report

section

variable {program : Program} {config wideConfig : Config} {fuel wideFuel : Nat}
  {sink wideSink : Sink} {stop : RunStop} {way : Shortfall}

theorem Program.run_sink (program : Program) (config : Config) (fuel : Nat) (sink : Sink) :
    (program.run config fuel sink).sink =
      ((Action.run config fuel program).final ⟨.empty, sink, []⟩).sink := by
  cases run : Action.run config fuel program ⟨.empty, sink, []⟩ with
  | ok value machine => rw [Program.run_of_ok run, Action.final_of_ok run]
  | error cause machine => rw [Program.run_of_error run, Action.final_of_error run]

theorem Program.run_events (program : Program) (config : Config) (fuel : Nat) (sink : Sink) :
    (program.run config fuel sink).events =
      ((Action.run config fuel program).final ⟨.empty, sink, []⟩).events.reverse := by
  cases run : Action.run config fuel program ⟨.empty, sink, []⟩ with
  | ok value machine => rw [Program.run_of_ok run, Action.final_of_ok run]
  | error cause machine => rw [Program.run_of_error run, Action.final_of_error run]

/-- Of two runs that start alike, the first reports the same as the second, or that it fell short. -/
theorem Program.run_compares (start : way.alike sink wideSink)
    (within : way.Within .outOfFuel fuel wideFuel)
    (limits : way.Within (.fault (.recursionLimit config.maxCallDepth)) config.maxCallDepth
      wideConfig.maxCallDepth) {low high : RunReport} (lowRun : program.run config fuel sink = low)
    (highRun : program.run wideConfig wideFuel wideSink = high) :
    (low.outcome = high.outcome ∧ way.alike low.sink high.sink ∧ low.events = high.events) ∨
      (low.outcome = .error way.stop ∧ way.short low.sink high.sink ∧ low.events <+: high.events) := by
  subst lowRun highRun
  have alike : way.Alike ⟨.empty, sink, []⟩ ⟨.empty, wideSink, []⟩ := ⟨rfl, start, rfl⟩
  rcases (Action.run_falls within limits program).compares _ _ alike with
    agrees | ⟨last, stopped, short⟩
  · left
    generalize lowRun : Action.run config fuel program _ = low at agrees
    generalize highRun : Action.run wideConfig wideFuel program _ = high at agrees
    cases agrees with
    | ok alike =>
      rw [Program.run_of_ok lowRun, Program.run_of_ok highRun]
      exact ⟨rfl, alike.sink, congrArg List.reverse alike.events⟩
    | stop alike =>
      rw [Program.run_of_error lowRun, Program.run_of_error highRun]
      exact ⟨rfl, alike.sink, congrArg List.reverse alike.events⟩
  · have ends := Action.final_of_error stopped
    refine .inr ⟨by rw [Program.run_of_error stopped], ?_, ?_⟩
    · rw [Program.run_sink, Program.run_sink, ends]
      exact short.sink
    · rw [Program.run_events, Program.run_events, ends, List.reverse_prefix]
      exact short.events

theorem Program.run_bounded (within : (Shortfall.ofBound stop).Within .outOfFuel fuel wideFuel)
    (limits : (Shortfall.ofBound stop).Within (.fault (.recursionLimit config.maxCallDepth))
      config.maxCallDepth wideConfig.maxCallDepth) :
    program.run config fuel sink = program.run wideConfig wideFuel sink ∨
      (program.run config fuel sink).FallsShort stop (program.run wideConfig wideFuel sink) := by
  have start : (Shortfall.ofBound stop).alike sink sink := rfl
  rcases Program.run_compares start within limits rfl rfl with
    ⟨outcomes, sinks, events⟩ | ⟨stopped, written, noted⟩
  · have sinks : _ = _ := sinks
    left
    generalize program.run config fuel sink = low at outcomes sinks events ⊢
    generalize program.run wideConfig wideFuel sink = high at outcomes sinks events ⊢
    cases low
    cases high
    simp_all only
  · exact .inr ⟨stopped, written, noted⟩

theorem Program.run_fuel_le (config : Config) (sink : Sink) (le : fuel ≤ wideFuel) :
    program.run config fuel sink = program.run config wideFuel sink ∨
      (program.run config fuel sink).FallsShort .outOfFuel (program.run config wideFuel sink) :=
  Program.run_bounded (.inr ⟨le, rfl, fun {_ _} same => same ▸ .refl _⟩) (.inl rfl)

/-- A run that ends has one report, whatever bound on activations and rounds was enough for it. -/
theorem Program.Ends.unique {report other : RunReport} (ends : program.Ends config sink report)
    (ends' : program.Ends config sink other) : report = other := by
  obtain ⟨finished, fuel, rfl⟩ := ends
  obtain ⟨finished', fuel', rfl⟩ := ends'
  rcases Nat.le_total fuel fuel' with le | le
  · rcases Program.run_fuel_le config sink le with same | short
    · exact same
    · exact absurd short.outcome finished
  · rcases Program.run_fuel_le config sink le with same | short
    · exact same.symm
    · exact absurd short.outcome finished'

end

end MiniPascal
