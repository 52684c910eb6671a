import MiniPascal.Command.Execute

namespace MiniPascal

/-- The bytes of a file, or why they cannot be read. -/
def readContents (file : String) : IO (Except FileProblem ByteArray) := do
  try
    return .ok (← IO.FS.readBinFile file)
  catch
    | .noFileOrDirectory .. => return .error .missing
    | .inappropriateType _ code _ =>
      return .error (if code = 20 then .notADirectory else .directory)
    | .invalidArgument _ 36 _ => return .error .nameTooLong
    | .permissionDenied .. => return .error .forbidden
    | problem => return .error (.other (toString problem))

/-- More activations and rounds than any machine completes. -/
def plentyOfFuel : Nat := Nat.pow 2 60

/-- A log entry as one line. -/
def LogEntry.line (entry : LogEntry) : String :=
  entry.level.name ++ " " ++ entry.message ++
    String.join (entry.fields.map fun (name, value) => " " ++ name ++ "=" ++ value)

/-- Reads the file that a command line names, if it names one, and serves the command line. -/
def serveFromFiles (args : List String) : IO CommandResult := do
  match Request.ofArguments? args with
  | some (.onFile _ file _) =>
    let contents ← readContents file
    return serve plentyOfFuel (fun _ => contents) args
  | _ => return serve plentyOfFuel (fun _ => .error .missing) args

end MiniPascal

open MiniPascal in
/-- Prints what the command line asks for and exits with its code. -/
def main (args : List String) : IO UInt32 := do
  let result ← serveFromFiles args
  (← IO.getStdout).write result.output
  for entry in result.log do
    IO.eprintln entry.line
  for line in result.diagnostics do
    IO.eprintln line
  return result.exitCode.toUInt32
