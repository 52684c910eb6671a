import MiniPascal.Parse.Error
import MiniPascal.Tree.Basic
import MiniPascal.Log

namespace MiniPascal

/-- What the parser reports while it works. -/
inductive ParseEvent where
  | parsedRoutine (name : String) (params : Nat)
  | parsedProgram (name : String)
deriving DecidableEq

/-- A parse event as a log shows it. -/
def ParseEvent.entry : ParseEvent → LogEntry
  | .parsedRoutine name params =>
    ⟨.trace, "parsed routine", [("params", toString params), ("routine", name)]⟩
  | .parsedProgram name => ⟨.debug, "parsed program", [("program", name)]⟩

/-- The parser's place in a scan: the token it looks at, those after it, what ended the scan, the
span of the token it consumed last, and the events so far, the latest first. -/
structure Cursor where
  current : Lexeme
  rest : List Lexeme
  failure : Option ScanError
  previous : Span
  events : List ParseEvent

/-- Why parsing stops: the text is no program, or the bound on nesting and repetition was too low. -/
inductive ParseStop where
  | error (cause : SourceError)
  | outOfFuel
deriving DecidableEq

/-- A grammar rule in action: it moves the cursor, and leaves it in place where it fails. -/
abbrev Parser := EStateM ParseStop Cursor

/-- The token in view. -/
def Parser.peek : Parser Token := do return (← get).current.token

/-- The span of the token in view. -/
def Parser.here : Parser Span := do return (← get).current.span

/-- The span of the token consumed last. -/
def Parser.previous : Parser Span := do return (← get).previous

/-- Consumes the token in view. The next one comes into view first, so a failure of the scan shows
as soon as the token before it is consumed; a scan that ended goes on with ends of input. -/
def Parser.advance : Parser Lexeme := fun cursor =>
  match cursor.rest, cursor.failure with
  | next :: rest, _ =>
    .ok cursor.current { cursor with current := next, rest := rest, previous := cursor.current.span }
  | [], some failure => .error (.error (.lexical failure)) cursor
  | [], none =>
    let sentinel : Lexeme := ⟨.mark .endOfInput, .point cursor.current.span.stop⟩
    .ok cursor.current { cursor with current := sentinel, previous := cursor.current.span }

/-- Fails at the token in view. -/
def Parser.unexpected {α : Type} (expected : Expected) : Parser α := fun cursor =>
  .error (.error (.grammatical expected cursor.current)) cursor

/-- Stops because the bound on nesting and repetition is used up. -/
def Parser.outOfFuel {α : Type} : Parser α := throw .outOfFuel

/-- Notes an event. -/
def Parser.note (event : ParseEvent) : Parser Unit :=
  modify fun cursor => { cursor with events := event :: cursor.events }

/-- Is this mark in view? -/
def Parser.sees (kind : Mark) : Parser Bool := do return (← peek) == .mark kind

/-- Consumes this mark if it is in view, and says whether it did. -/
def Parser.eat (kind : Mark) : Parser Bool := do
  if ← sees kind then
    let _ ← advance
    return true
  else
    return false

/-- Consumes this mark or fails. -/
def Parser.expect (kind : Mark) : Parser Unit := do
  if ← sees kind then
    let _ ← advance
  else
    unexpected (.mark kind)

/-- Consumes an identifier or fails. -/
def Parser.ident : Parser Ident := do
  match ← peek with
  | .ident name =>
    let lexeme ← advance
    return ⟨name, lexeme.span⟩
  | _ => unexpected .identifier

end MiniPascal
