import MiniPascal.Decimal.Reading

namespace MiniPascal

/-- What the command line asks to do with a source file. -/
inductive Job where
  | run (json : Bool) (maxDepth : Option Nat)
  | parse
  | tokens
deriving DecidableEq

/-- The subcommands that read a source file. -/
inductive Subcommand where
  | run
  | parse
  | tokens
deriving DecidableEq

/-- The subcommand of a name. -/
def Subcommand.find? : String → Option Subcommand
  | "run" => some .run
  | "parse" => some .parse
  | "tokens" => some .tokens
  | _ => none

/-- A well-formed command line. -/
inductive Request where
  | version
  | help
  | onFile (job : Job) (file : String) (verbose : Bool)
deriving DecidableEq

/-- One part of a command line: a letter after a single hyphen, a name after two with the value after
its equals sign, a plain word, the lone pair of hyphens, or any text after that. -/
inductive Argument where
  | letter (letter : Char)
  | long (name : String) (value : Option String)
  | word (text : String)
  | escape
  | operand (text : String)
deriving DecidableEq

/-- The name and the value of an option that follows two hyphens. -/
def Argument.ofLong (text : List Char) : Argument :=
  match text.dropWhile (· != '=') with
  | [] => .long (String.ofList text) none
  | _ :: value => .long (String.ofList (text.takeWhile (· != '='))) (some (String.ofList value))

/-- Reads arguments in order. Letters may share a hyphen, a hyphen alone is a word, and after the
pair of hyphens nothing is an option. -/
def Argument.read : List String → List Argument
  | [] => []
  | arg :: rest =>
    match arg.toList with
    | ['-', '-'] => .escape :: rest.map .operand
    | '-' :: '-' :: name => .ofLong name :: read rest
    | '-' :: first :: others => (first :: others).map .letter ++ read rest
    | _ => .word arg :: read rest

/-- The options that have a letter. -/
inductive Flag where
  | verbose
  | help
  | version
deriving DecidableEq

/-- The flag that an argument spells. -/
def Argument.flag? : Argument → Option Flag
  | .letter 'v' => some .verbose
  | .letter 'h' => some .help
  | .letter 'V' => some .version
  | .long "verbose" none => some .verbose
  | .long "help" none => some .help
  | .long "version" none => some .version
  | _ => none

/-- What was read of a subcommand's arguments so far. Each may be given once. -/
structure Settings where
  file : Option String
  json : Bool
  maxDepth : Option Nat
  verbose : Bool

/-- The settings before any argument. -/
def Settings.initial : Settings := ⟨none, false, none, false⟩

/-- An unsigned number of at most 64 bits; a plus may stand before it. -/
def depthOfText? (text : String) : Option Nat :=
  let digits := match text.toList with
    | '+' :: rest => rest
    | all => all
  if digits.isEmpty || !digits.all Char.isDigit then none
  else
    let value := natOfDigits digits
    if value < UInt64.size then some value else none

/-- Takes the file of a subcommand. -/
def Settings.takeFile? (settings : Settings) (file : String) : Option Settings :=
  if settings.file.isSome || file.isEmpty then none else some { settings with file := some file }

/-- Takes the wish for JSON, which only a run has. -/
def Settings.takeJson? (settings : Settings) (subcommand : Subcommand) : Option Settings :=
  if settings.json || subcommand != .run then none else some { settings with json := true }

/-- Takes the depth, which only a run has. -/
def Settings.takeDepth? (settings : Settings) (subcommand : Subcommand) (text : String) :
    Option Settings :=
  if settings.maxDepth.isSome || subcommand != .run then none
  else (depthOfText? text).map fun depth => { settings with maxDepth := some depth }

/-- Takes the wish for a log. -/
def Settings.takeVerbose? (settings : Settings) : Option Settings :=
  if settings.verbose then none else some { settings with verbose := true }

/-- The request that the settings of a subcommand make. -/
def Settings.request? (settings : Settings) (subcommand : Subcommand) (verbose : Bool) :
    Option Request := do
  let job := match subcommand with
    | .run => Job.run settings.json settings.maxDepth
    | .parse => .parse
    | .tokens => .tokens
  return .onFile job (← settings.file) (verbose || settings.verbose)

/-- Reads the arguments after a subcommand, options and the file in any order. Help is given as soon
as it is asked for, whatever follows. -/
def Settings.read? (subcommand : Subcommand) (verbose : Bool) (settings : Settings) :
    List Argument → Option Request
  | [] => settings.request? subcommand verbose
  | .long "json" none :: rest => do
    read? subcommand verbose (← settings.takeJson? subcommand) rest
  | .long "max-depth" (some value) :: rest => do
    read? subcommand verbose (← settings.takeDepth? subcommand value) rest
  | .long "max-depth" none :: .word value :: rest => do
    read? subcommand verbose (← settings.takeDepth? subcommand value) rest
  | .word file :: rest => do read? subcommand verbose (← settings.takeFile? file) rest
  | .operand file :: rest => do read? subcommand verbose (← settings.takeFile? file) rest
  | .escape :: rest => read? subcommand verbose settings rest
  | arg :: rest =>
    match arg.flag? with
    | some .verbose => do read? subcommand verbose (← settings.takeVerbose?) rest
    | some .help => some .help
    | _ => none

/-- Whether arguments after `help` are nothing, or the name of a command. -/
def isHelpTopic : List Argument → Bool
  | [] => true
  | [.word name] => name = "help" ∨ (Subcommand.find? name).isSome
  | _ => false

/-- Reads a command line: options for all commands, a subcommand, and its arguments. Help and the
version are given as soon as they are asked for, whatever follows. -/
def Request.read? (verbose : Bool) : List Argument → Option Request
  | [] => none
  | .word "help" :: rest => if isHelpTopic rest then some .help else none
  | .word name :: rest => do Settings.read? (← Subcommand.find? name) verbose .initial rest
  | arg :: rest =>
    match arg.flag? with
    | some .verbose => if verbose then none else read? true rest
    | some .help => some .help
    | some .version => some .version
    | none => none

/-- The request of a list of arguments, unless they are malformed. -/
def Request.ofArguments? (args : List String) : Option Request := read? false (Argument.read args)

end MiniPascal
