import MiniPascal.Token.Pattern
import MiniPascal.Proofs.Token.Regex

namespace MiniPascal

/-- The characters from one to another. -/
def inRange (low high c : Char) : Bool := low ≤ c && c ≤ high

/-- The characters that stand for a capital where case does not count: the two cases of the letter,
and the long s and the Kelvin sign, which fold to an s and a k. -/
def foldsTo (capital c : Char) : Bool :=
  c == capital || c == capital.toLower || (capital == 'S' && c == 'ſ') ||
    (capital == 'K' && c == '\u212a')

namespace Regex

/-- A character of a list. -/
def anyOf (chars : List Char) : Regex := .oneOf chars.contains

/-- A character that is not in a list. -/
def noneOf (chars : List Char) : Regex := .oneOf fun c => !chars.contains c

/-- A decimal digit, `[0-9]`. -/
def digit : Regex := .oneOf (inRange '0' '9')

/-- A word in any case of its letters. -/
def anyCase : List Char → Regex
  | [] => .empty
  | capital :: rest => .seq (.oneOf (foldsTo capital)) (anyCase rest)

/-- The rest of a starred comment, `([^*]|\*+[^*)])*\*+\)`. -/
def starTail : Regex :=
  .seq (.many (.either (noneOf ['*']) (.seq (many1 (char '*')) (noneOf ['*', ')']))))
    (.seq (many1 (char '*')) (char ')'))

/-- The exponent of a real, `[eE][+-]?[0-9]+`. -/
def exponent : Regex :=
  .seq (anyOf ['e', 'E']) (.seq (optional (anyOf ['+', '-'])) (many1 digit))

/-- The rest of a string literal, `([^']|'')*'`. -/
def textTail : Regex :=
  .seq (.many (.either (noneOf ['\x27']) (literal ['\x27', '\x27']))) (char '\x27')

end Regex

/-- What the scanner knows: blanks and comments, which it skips, and the kinds of tokens. -/
inductive Rule where
  | blanks
  | braceComment
  | starComment
  | keyword (mark : Mark)
  | integer
  | real
  | text
  | identifier
  | symbol (mark : Mark)
deriving DecidableEq

namespace Rule

/-- All rules. -/
def all : List Rule :=
  [blanks, braceComment, starComment] ++ Mark.keywords.map keyword ++
    [integer, real, text, identifier] ++ Mark.symbols.map symbol

/-- Rules whose matches are passed over. -/
def isSkip : Rule → Bool
  | blanks | braceComment | starComment => true
  | _ => false

/-- The texts of a rule. -/
def form : Rule → Regex
  -- [ \t\n\r\f]+
  | blanks => .many1 (.anyOf [' ', '\t', '\n', '\r', '\x0c'])
  -- \{[^}]*\}
  | braceComment =>
    .seq (.literal ['\x7b']) (.seq (.many (.noneOf ['\x7d'])) (.char '\x7d'))
  | starComment => .seq (.literal ['(', '*']) .starTail
  | keyword mark => .anyCase mark.spelling.toList
  | integer => .many1 .digit
  -- [0-9]+\.[0-9]+([eE][+-]?[0-9]+)?
  | real =>
    .seq (.many1 .digit) (.seq (.char '.') (.seq (.many1 .digit) (.optional .exponent)))
  | text => .seq (.literal ['\x27']) .textTail
  -- [A-Za-z_][A-Za-z0-9_]*
  | identifier =>
    .seq (.oneOf fun c => inRange 'A' 'Z' c || inRange 'a' 'z' c || c == '_')
      (.many (.oneOf fun c => inRange 'A' 'Z' c || inRange 'a' 'z' c || inRange '0' '9' c || c == '_'))
  | symbol mark => .literal mark.spelling.toList

/-- The pattern that carries out a rule. -/
def pattern : Rule → Pattern
  | blanks => .blanks
  | braceComment => .braceComment
  | starComment => .starComment
  | keyword mark => .keyword mark
  | integer => .integer
  | real => .real
  | text => .text
  | identifier => .identifier
  | symbol mark => .symbol mark

theorem map_pattern_all : all.map pattern = Pattern.all := rfl

end Rule

end MiniPascal
