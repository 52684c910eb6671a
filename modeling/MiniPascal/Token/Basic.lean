import MiniPascal.Source.Span
import MiniPascal.Decimal.Layout
import MiniPascal.Text.Quoted

namespace MiniPascal

/-- The tokens of a fixed spelling, and the end of the input. -/
inductive Mark where
  | kwProgram
  | kwVar
  | kwBegin
  | kwEnd
  | kwIf
  | kwThen
  | kwElse
  | kwRepeat
  | kwUntil
  | kwProcedure
  | kwFunction
  | kwDiv
  | kwInteger
  | kwReal
  | plus
  | minus
  | star
  | slash
  | assign
  | equal
  | less
  | greater
  | leftParen
  | rightParen
  | semicolon
  | colon
  | comma
  | dot
  | endOfInput
deriving DecidableEq

/-- Words that stand for themselves in any case of their letters. -/
def Mark.keywords : List Mark := [.kwProgram, .kwVar, .kwBegin, .kwEnd, .kwIf, .kwThen, .kwElse,
  .kwRepeat, .kwUntil, .kwProcedure, .kwFunction, .kwDiv, .kwInteger, .kwReal]

/-- Operators, brackets and punctuation. -/
def Mark.symbols : List Mark := [.plus, .minus, .star, .slash, .assign, .equal, .less, .greater,
  .leftParen, .rightParen, .semicolon, .colon, .comma, .dot]

/-- How a mark is spelled; keywords in capitals. -/
def Mark.spelling : Mark → String
  | .kwProgram => "PROGRAM"
  | .kwVar => "VAR"
  | .kwBegin => "BEGIN"
  | .kwEnd => "END"
  | .kwIf => "IF"
  | .kwThen => "THEN"
  | .kwElse => "ELSE"
  | .kwRepeat => "REPEAT"
  | .kwUntil => "UNTIL"
  | .kwProcedure => "PROCEDURE"
  | .kwFunction => "FUNCTION"
  | .kwDiv => "DIV"
  | .kwInteger => "INTEGER"
  | .kwReal => "REAL"
  | .plus => "+"
  | .minus => "-"
  | .star => "*"
  | .slash => "/"
  | .assign => ":="
  | .equal => "="
  | .less => "<"
  | .greater => ">"
  | .leftParen => "("
  | .rightParen => ")"
  | .semicolon => ";"
  | .colon => ":"
  | .comma => ","
  | .dot => "."
  | .endOfInput => ""

/-- What a token listing calls a mark. -/
def Mark.label : Mark → String
  | .kwProgram => "Program"
  | .kwVar => "Var"
  | .kwBegin => "Begin"
  | .kwEnd => "End"
  | .kwIf => "If"
  | .kwThen => "Then"
  | .kwElse => "Else"
  | .kwRepeat => "Repeat"
  | .kwUntil => "Until"
  | .kwProcedure => "Procedure"
  | .kwFunction => "Function"
  | .kwDiv => "Div"
  | .kwInteger => "TyInteger"
  | .kwReal => "TyReal"
  | .plus => "Plus"
  | .minus => "Minus"
  | .star => "Star"
  | .slash => "Slash"
  | .assign => "Assign"
  | .equal => "Eq"
  | .less => "Lt"
  | .greater => "Gt"
  | .leftParen => "LParen"
  | .rightParen => "RParen"
  | .semicolon => "Semi"
  | .colon => "Colon"
  | .comma => "Comma"
  | .dot => "Dot"
  | .endOfInput => "Eof"

/-- What messages call a mark: its spelling between backticks, but words for the end of the input. -/
def Mark.description : Mark → String
  | .endOfInput => "end of input"
  | mark => "`" ++ mark.spelling ++ "`"

/-- A token with the value that its text denotes. -/
inductive Token where
  | mark (kind : Mark)
  | integer (value : Int64)
  | real (value : Float)
  | text (value : String)
  | ident (name : String)
deriving DecidableEq

/-- A token in a token listing. -/
def Token.listing : Token → String
  | .mark kind => kind.label
  | .integer value => "IntConst(" ++ toString value.toInt ++ ")"
  | .real value => "RealConst(" ++ Layout.debug.text value ++ ")"
  | .text value => "StrConst(" ++ quoted value ++ ")"
  | .ident name => "Ident(" ++ quoted name ++ ")"

/-- A token in a message. -/
def Token.description : Token → String
  | .mark kind => kind.description
  | .integer value => "integer constant `" ++ toString value.toInt ++ "`"
  | .real value => "real constant `" ++ Layout.plain.text value ++ "`"
  | .text value => "string constant '" ++ value ++ "'"
  | .ident name => "identifier `" ++ name ++ "`"

/-- A token and the bytes of the source that it was read from. -/
structure Lexeme where
  token : Token
  span : Span
deriving DecidableEq

/-- A line of a token listing. -/
def Lexeme.listing (lexeme : Lexeme) : String := lexeme.token.listing ++ " @ " ++ lexeme.span.text

end MiniPascal
