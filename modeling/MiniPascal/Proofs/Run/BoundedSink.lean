import MiniPascal.Proofs.Run.Continues
import MiniPascal.Proofs.Run.RecursionLimit

namespace MiniPascal

/-- A sink with room for `total` bytes in all, next to one without a bound that took the same. -/
structure Sink.Bounded (total : Nat) (low high : Sink) : Prop where
  taken : low.taken = high.taken
  fits : low.taken.size ≤ total
  room : low.room = some (total - low.taken.size)
  unbounded : high.room = none

/-- A sink that took the first `total` bytes of what another one took. -/
structure Sink.Cut (total : Nat) (low high : Sink) : Prop where
  past : total < high.taken.size
  taken : low.taken = high.taken.extract 0 total

section

variable {total : Nat} {low high later : Sink}

theorem Sink.write_unbounded (unbounded : high.room = none) (bytes : ByteArray) :
    high.write bytes = (⟨high.taken ++ bytes, none⟩, true) := by
  rw [Sink.write, unbounded]

theorem Sink.bounded_empty (total : Nat) : (Sink.empty (some total)).Bounded total (.empty none) :=
  ⟨rfl, Nat.zero_le _, rfl, rfl⟩

theorem Sink.Cut.grows (cut : low.Cut total high) (grows : high.Grows later) :
    low.Cut total later := by
  obtain ⟨bytes, taken⟩ := grows
  have past := cut.past
  refine ⟨by rw [taken, ByteArray.size_append]; omega, ?_⟩
  have nothing : total - high.taken.size = 0 := by omega
  rw [taken, ByteArray.extract_append, nothing, Nat.zero_sub, ← cut.taken]
  simp

/-- One write: both sinks take it, or the bounded one fills up in the middle of it. -/
theorem Sink.Bounded.write (bounded : low.Bounded total high) (bytes : ByteArray) :
    ((low.write bytes).2 = true ∧ (low.write bytes).1.Bounded total (high.write bytes).1) ∨
      (low.write bytes).2 = false ∧ (low.write bytes).1.Cut total (high.write bytes).1 := by
  obtain ⟨taken, fits, room, unbounded⟩ := bounded
  rw [Sink.write_unbounded unbounded, Sink.write, room]
  dsimp only
  by_cases enough : bytes.size ≤ total - low.taken.size
  · rw [if_pos enough]
    refine .inl ⟨rfl, by rw [taken], ?_, ?_, rfl⟩
    · rw [ByteArray.size_append]
      omega
    · rw [ByteArray.size_append, Nat.sub_sub]
  · rw [if_neg enough]
    refine .inr ⟨rfl, by rw [ByteArray.size_append, ← taken]; omega, ?_⟩
    have whole : high.taken.extract 0 total = high.taken := by
      apply ByteArray.ext
      rw [ByteArray.data_extract, Array.extract_eq_self_of_le]
      rw [← taken]
      exact fits
    rw [ByteArray.extract_append, whole, Nat.zero_sub, taken]

theorem Sink.writeAll_unbounded (unbounded : high.room = none) (texts : List String) :
    (high.writeAll texts).2 = true := by
  induction texts generalizing high with
  | nil => rfl
  | cons text rest ih =>
    rw [Sink.writeAll, Sink.write_unbounded unbounded]
    exact ih rfl

/-- A row of writes goes on in both sinks as long as the bounded one takes them whole. -/
theorem Sink.Bounded.writeAll (bounded : low.Bounded total high) (texts : List String) :
    ((low.writeAll texts).2 = true ∧ (low.writeAll texts).1.Bounded total (high.writeAll texts).1) ∨
      (low.writeAll texts).2 = false ∧ (low.writeAll texts).1.Cut total (high.writeAll texts).1 := by
  induction texts generalizing low high with
  | nil => exact .inl ⟨rfl, bounded⟩
  | cons text rest ih =>
    have whole := Sink.write_unbounded bounded.unbounded text.toUTF8
    have step := bounded.write text.toUTF8
    rw [Sink.writeAll, Sink.writeAll]
    rcases written : low.write text.toUTF8 with ⟨sink, all⟩
    rw [written, whole] at step
    rw [whole]
    rcases step with ⟨rfl, bounded⟩ | ⟨rfl, cut⟩
    · exact ih bounded
    · exact .inr ⟨rfl, cut.grows (Sink.writeAll_grows _ rest)⟩

theorem Builtin.run_eq (builtin : Builtin) (args : List Value) (sink : Sink) :
    builtin.run args sink = ((sink.writeAll (builtin.output args)).1,
      if (sink.writeAll (builtin.output args)).2 then none else some .sinkClosed) := by
  rw [Builtin.run]
  rcases sink.writeAll (builtin.output args) with ⟨after, _ | _⟩ <;> rfl

/-- The same run on a sink with a bound and on one without: they do the same until the bounded sink
is full, and the run that meets the bound has written the front of what the other writes. -/
def Shortfall.ofRoom (total : Nat) : Shortfall where
  stop := .fault .sinkClosed
  alike := Sink.Bounded total
  short := Sink.Cut total
  grows := Sink.Cut.grows
  builtin := by
    intro builtin args low high bounded
    have unbounded := Sink.writeAll_unbounded bounded.unbounded (builtin.output args)
    rw [Builtin.run_eq, Builtin.run_eq, unbounded]
    rcases bounded.writeAll (builtin.output args) with ⟨all, bounded⟩ | ⟨part, cut⟩
    · exact .inl ⟨by rw [all], bounded⟩
    · exact .inr ⟨.sinkClosed, rfl, by rw [part]; rfl, cut⟩

theorem Program.run_room (program : Program) (config : Config) (fuel total : Nat)
    {bounded report : RunReport}
    (lowRun : program.run config fuel (.empty (some total)) = bounded)
    (highRun : program.run config fuel (.empty none) = report) :
    (report.sink.taken.size ≤ total ∧ bounded.outcome = report.outcome ∧
        bounded.sink.taken = report.sink.taken ∧ bounded.events = report.events) ∨
      (total < report.sink.taken.size ∧ bounded.outcome = .error (.fault .sinkClosed) ∧
        bounded.sink.taken = report.sink.taken.extract 0 total ∧
        bounded.events <+: report.events) := by
  have start : (Shortfall.ofRoom total).alike (.empty (some total)) (.empty none) :=
    Sink.bounded_empty total
  rcases Program.run_compares start (.inl rfl) (.inl rfl) lowRun highRun with
    ⟨outcome, sinks, events⟩ | ⟨outcome, cut, events⟩
  · obtain ⟨taken, fits, -⟩ : bounded.sink.Bounded total report.sink := sinks
    exact .inl ⟨taken ▸ fits, outcome, taken, events⟩
  · obtain ⟨past, taken⟩ : bounded.sink.Cut total report.sink := cut
    exact .inr ⟨past, outcome, taken, events⟩

end

/-- A sink with a bound shows the front of what one without a bound shows. Where the run into an
unbounded sink ends, the run into a sink that takes so many bytes ends too: in the same way with the
same output, if all of it fits, and otherwise by the closed sink, with exactly as many bytes as fit.
Throughout every run, on any sink and however it ends, output is only added: to what the sink held
at the start, from each piece of work to its next part, to the end of that part, to the end of the
whole piece, and to the end of the run. -/
theorem bounded_sink_refines (program : Program) (config : Config) :
    (∀ total report, program.Ends config (.empty none) report →
      (∃ bounded, program.Ends config (.empty (some total)) bounded) ∧
      ∀ bounded, program.Ends config (.empty (some total)) bounded →
        (report.sink.taken.size ≤ total → bounded.outcome = report.outcome ∧
          bounded.sink.taken = report.sink.taken ∧ bounded.events = report.events) ∧
        (total < report.sink.taken.size → bounded.outcome = .error (.fault .sinkClosed) ∧
          bounded.sink.taken = report.sink.taken.extract 0 total)) ∧
    ∀ fuel sink,
      (∀ machine, Visited config program fuel sink machine →
        sink.Grows machine.sink ∧ machine.sink.Grows (program.run config fuel sink).sink) ∧
      ∀ point next, Reached config program fuel sink point → Step config point next →
        point.machine.sink.Grows next.machine.sink ∧
          next.machine.sink.Grows (next.final config).sink ∧
          (next.final config).sink.Grows (point.final config).sink := by
  refine ⟨?_, ?_⟩
  · rintro total report ⟨finished, fuel, ran⟩
    have compared := Program.run_room program config fuel total rfl ran
    have ends : program.Ends config (.empty (some total))
        (program.run config fuel (.empty (some total))) := by
      refine ⟨?_, fuel, rfl⟩
      rcases compared with ⟨-, outcome, -⟩ | ⟨-, outcome, -⟩
      · rw [outcome]
        exact finished
      · rw [outcome]
        simp
    refine ⟨⟨_, ends⟩, fun bounded ends' => ?_⟩
    rw [ends'.unique ends]
    rcases compared with ⟨fits, outcome, taken, events⟩ | ⟨past, outcome, taken, -⟩
    · exact ⟨fun _ => ⟨outcome, taken, events⟩, fun past => absurd fits (Nat.not_le.mpr past)⟩
    · exact ⟨fun fits => absurd fits (Nat.not_le.mpr past), fun _ => ⟨outcome, taken⟩⟩
  · intro fuel sink
    refine ⟨fun machine visited => ?_, fun point next reached step => ?_⟩
    · rw [Program.run_sink]
      exact ⟨visited.continues.1.written, visited.continues.2.written⟩
    · exact ⟨step.continues.written, next.final_continues.written, step.final_continues.written⟩

/-- Two lines of six bytes each are cut in the second one, and the run ends there. -/
theorem bounded_sink_refines_endless : ∃ report bounded,
    endless.Ends ⟨2⟩ (.empty none) report ∧ report.sink.taken.size = 12 ∧
      endless.Ends ⟨2⟩ (.empty (some 8)) bounded ∧
      bounded.outcome = .error (.fault .sinkClosed) ∧
      bounded.sink.taken = report.sink.taken.extract 0 8 := by
  have ended : (endless.run ⟨2⟩ 3 (.empty none)).outcome = .error (.fault (.recursionLimit 2)) := by
    cbv
  have written : (endless.run ⟨2⟩ 3 (.empty none)).sink.taken.size = 12 := by cbv
  have ends : endless.Ends ⟨2⟩ (.empty none) (endless.run ⟨2⟩ 3 (.empty none)) :=
    ⟨by rw [ended]; simp, 3, rfl⟩
  obtain ⟨⟨bounded, ends'⟩, compares⟩ := (bounded_sink_refines endless ⟨2⟩).1 8 _ ends
  obtain ⟨-, cut⟩ := compares bounded ends'
  exact ⟨_, bounded, ends, written, ends', cut (by rw [written]; decide)⟩

end MiniPascal
