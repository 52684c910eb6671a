import MiniPascal.Sink
import MiniPascal.Fault

namespace MiniPascal

/-- Procedures that need no declaration. -/
inductive Builtin where
  | writeln
deriving DecidableEq

/-- All builtins. -/
def Builtin.all : List Builtin := [.writeln]

/-- The name of a builtin in small letters. -/
def Builtin.name : Builtin → String
  | .writeln => "writeln"

/-- The number of arguments a call must have. -/
def Builtin.arity : Builtin → Nat
  | .writeln => 1

/-- Looks a builtin up; the case of ASCII letters does not count. -/
def Builtin.find? (name : String) : Option Builtin :=
  all.find? (·.name.toList == name.toList.map Char.toLower)

/-- What a builtin sends to the sink: the texts of its arguments, each a write of its own, and a line
feed. -/
def Builtin.output (builtin : Builtin) (args : List Value) : List String :=
  match builtin with
  | .writeln => args.map Value.display ++ ["\n"]

/-- Writes texts one after another, up to the first that does not fit. -/
def Sink.writeAll (sink : Sink) : List String → Sink × Bool
  | [] => (sink, true)
  | text :: rest =>
    match sink.write text.toUTF8 with
    | (sink, true) => sink.writeAll rest
    | (sink, false) => (sink, false)

/-- Runs a builtin on a sink: the sink afterwards, and the fault of a sink that closed. -/
def Builtin.run (builtin : Builtin) (args : List Value) (sink : Sink) : Sink × Option Fault :=
  match sink.writeAll (builtin.output args) with
  | (sink, true) => (sink, none)
  | (sink, false) => (sink, some .sinkClosed)

/-- A builtin as a log shows it. -/
def Builtin.listing (builtin : Builtin) : String :=
  "Builtin \x7b name: " ++ quoted builtin.name ++ ", arity: " ++ toString builtin.arity ++ " \x7d"

end MiniPascal
