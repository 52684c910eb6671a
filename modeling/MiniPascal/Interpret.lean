import MiniPascal.Parse.Rules
import MiniPascal.Run.Eval

namespace MiniPascal

/-- Why a source text gives no final variables. -/
inductive Failure where
  | source (error : SourceError)
  | fault (cause : Fault)
  | outOfFuel
deriving DecidableEq

/-- A parser that stopped, as a failure of the whole. -/
def ParseStop.failure : ParseStop → Failure
  | .error cause => .source cause
  | .outOfFuel => .outOfFuel

/-- A run that stopped, as a failure of the whole. -/
def RunStop.failure : RunStop → Failure
  | .fault cause => .fault cause
  | .outOfFuel => .outOfFuel

/-- What interpreting a text gives: the final variables or why there are none, the sink afterwards,
and the log of parsing and running. -/
structure Interpretation where
  outcome : Except Failure Snapshot
  sink : Sink
  log : List LogEntry

/-- Runs a program and writes its events down. -/
def Program.interpret (config : Config) (fuel : Nat) (sink : Sink) (program : Program) :
    Interpretation :=
  let report := program.run config fuel sink
  ⟨report.outcome.mapError RunStop.failure, report.sink, report.events.map RunEvent.entry⟩

/-- Parses and runs a source text. -/
def interpret (config : Config) (fuel : Nat) (sink : Sink) (source : String) : Interpretation :=
  let parsed := parse source
  let log := parsed.events.map ParseEvent.entry
  match parsed.outcome with
  | .error stop => ⟨.error stop.failure, sink, log⟩
  | .ok program =>
    let interpretation := program.interpret config fuel sink
    { interpretation with log := log ++ interpretation.log }

/-- Parses and runs a source text on a session. A text that is no program leaves the session as it
is. -/
def Session.interpret (session : Session) (fuel : Nat) (source : String) : Interpretation × Session :=
  let parsed := parse source
  let log := parsed.events.map ParseEvent.entry
  match parsed.outcome with
  | .error stop => (⟨.error stop.failure, session.sink, log⟩, session)
  | .ok program =>
    let (report, next) := session.run fuel program
    (⟨report.outcome.mapError RunStop.failure, report.sink, log ++ report.events.map RunEvent.entry⟩,
      next)

/-- Interprets texts one after another on a session. A failure does not keep the later ones from
running. -/
def Session.interpretAll (session : Session) (fuel : Nat) : List String → List Interpretation
  | [] => []
  | source :: rest =>
    let (interpretation, next) := session.interpret fuel source
    interpretation :: next.interpretAll fuel rest

/-- Interprets texts one after another on one session. -/
def interpretAll (config : Config) (fuel : Nat) (sink : Sink) (sources : List String) :
    List Interpretation :=
  (Session.start config sink).interpretAll fuel sources

end MiniPascal
