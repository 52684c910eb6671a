import MiniPascal.Token.Scan

namespace MiniPascal

/-- What the grammar would have accepted in place of a token. -/
inductive Expected where
  | mark (kind : Mark)
  | identifier
  | typeName
  | relationalOperator
  | expression
deriving DecidableEq

/-- What messages call something expected. -/
def Expected.description : Expected → String
  | .mark kind => kind.description
  | .identifier => "identifier"
  | .typeName => "type name"
  | .relationalOperator => "relational operator"
  | .expression => "expression"

/-- Why a text is not a program: a stretch of it is no token, or a token stands where the grammar
has no place for it. -/
inductive SourceError where
  | lexical (cause : ScanError)
  | grammatical (expected : Expected) (found : Lexeme)
deriving DecidableEq

/-- The place of an error. -/
def SourceError.span : SourceError → Span
  | .lexical cause => cause.span
  | .grammatical _ found => found.span

/-- What is wrong, without the place. -/
def SourceError.label : SourceError → String
  | .lexical cause => "unexpected character " ++ quotedChar cause.char
  | .grammatical expected found =>
    "expected " ++ expected.description ++ ", found " ++ found.token.description

/-- The kind of an error as the headline of a report has it. -/
def SourceError.kind : SourceError → String
  | .lexical _ => "Lexical"
  | .grammatical _ _ => "Syntax"

/-- What is wrong and where. -/
def SourceError.message (error : SourceError) : String :=
  let kind := match error with
    | .lexical _ => "lexical"
    | .grammatical _ _ => "syntax"
  kind ++ " error at " ++ error.span.text ++ ": " ++ error.label

end MiniPascal
