import MiniPascal.Command.Arguments
import MiniPascal.Interpret
import MiniPascal.Json.Pretty
import MiniPascal.Source.Position
import MiniPascal.Tree.Encode

namespace MiniPascal

/-- Why a file cannot be read. -/
inductive FileProblem where
  | missing
  | directory
  | notADirectory
  | nameTooLong
  | forbidden
  | other (message : String)
deriving DecidableEq

/-- What messages say about a file that cannot be read. -/
def FileProblem.message : FileProblem → String
  | .missing => "No such file or directory (os error 2)"
  | .directory => "Is a directory (os error 21)"
  | .notADirectory => "Not a directory (os error 20)"
  | .nameTooLong => "File name too long (os error 36)"
  | .forbidden => "Permission denied (os error 13)"
  | .other message => message

/-- What a command does: its exit code, what it prints, the lines of its diagnostics, and its log. -/
structure CommandResult where
  exitCode : Nat
  output : ByteArray
  diagnostics : List String
  log : List LogEntry

/-- How the program is called. -/
def usageLine : String :=
  "usage: pascal [-v] (run FILE [--json] [--max-depth N] | parse FILE | tokens FILE)"

/-- The answer to a command line that is malformed. -/
def CommandResult.usage : CommandResult := ⟨2, .empty, [usageLine], []⟩

/-- A command that did its work. -/
def CommandResult.success (output : ByteArray) (log : List LogEntry) : CommandResult :=
  ⟨0, output, [], log⟩

/-- A command that failed. -/
def CommandResult.failure (output : ByteArray) (diagnostics : List String) (log : List LogEntry) :
    CommandResult :=
  ⟨1, output, diagnostics, log⟩

/-- The headline of a report on a source text, and the place that it points to. -/
def SourceError.report (file source : String) (error : SourceError) : List String :=
  let position := Position.ofOffset? source error.span.start
  ["Error: " ++ error.kind ++ " error", "╭─[ " ++ file ++ ":" ++ Position.text position ++ " ]"]

/-- The report on a failure. -/
def Failure.report (file source : String) : Failure → List String
  | .source error => error.report file source
  | .fault cause => ["Error: Runtime error: " ++ cause.message]
  | .outOfFuel => ["Error: the run was given up"]

/-- The final variables as `run` prints them. -/
def Snapshot.printed (snapshot : Snapshot) (json : Bool) : String :=
  if json then snapshot.toJson.pretty 0 ++ "\n" else snapshot.text

/-- Runs a source text: its output, then its final variables. -/
def runCommand (fuel : Nat) (file source : String) (json : Bool) (maxDepth : Option Nat) :
    CommandResult :=
  let config := match maxDepth with
    | some depth => Config.default.withMaxCallDepth depth
    | none => .default
  let interpretation := interpret config fuel (.empty none) source
  match interpretation.outcome with
  | .ok snapshot =>
    .success (interpretation.sink.taken ++ (snapshot.printed json).toUTF8) interpretation.log
  | .error failure =>
    .failure interpretation.sink.taken (failure.report file source) interpretation.log

/-- Prints the tree of a source text. -/
def parseCommand (file source : String) : CommandResult :=
  let parsed := parse source
  let log := parsed.events.map ParseEvent.entry
  match parsed.outcome with
  | .ok program => .success (program.toJson.pretty 0 ++ "\n").toUTF8 log
  | .error stop => .failure .empty (stop.failure.report file source) log

/-- Prints the tokens of a source text, one a line. -/
def tokensCommand (file source : String) : CommandResult :=
  match (scan source).result with
  | .ok lexemes =>
    .success (String.join (lexemes.map fun lexeme => lexeme.listing ++ "\n")).toUTF8 []
  | .error failure => .failure .empty ((SourceError.lexical failure).report file source) []

/-- Does a job on the contents of its file. -/
def Job.execute (fuel : Nat) (file : String) (job : Job) (contents : Except FileProblem ByteArray) :
    CommandResult :=
  match contents with
  | .error problem => .failure .empty ["Error: " ++ problem.message] []
  | .ok bytes =>
    match String.fromUTF8? bytes with
    | none => .failure .empty ["Error: stream did not contain valid UTF-8"] []
    | some source =>
      match job with
      | .run json maxDepth => runCommand fuel file source json maxDepth
      | .parse => parseCommand file source
      | .tokens => tokensCommand file source

/-- Serves a command line, with the contents of each file given by `read`. -/
def serve (fuel : Nat) (read : String → Except FileProblem ByteArray) (args : List String) :
    CommandResult :=
  match Request.ofArguments? args with
  | none => .usage
  | some .version => .success "pascal 0.1.0\n".toUTF8 []
  | some .help => .success (usageLine ++ "\n").toUTF8 []
  | some (.onFile job file verbose) =>
    let result := job.execute fuel file (read file)
    { result with log := if verbose then result.log.filter (·.level == .debug) else [] }

end MiniPascal
