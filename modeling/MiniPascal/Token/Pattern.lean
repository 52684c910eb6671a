import MiniPascal.Token.Basic
import MiniPascal.Decimal.Reading

namespace MiniPascal

/-- What the text matched by a pattern stands for. -/
inductive Yield where
  | nothing
  | token (token : Token)
  | refused
deriving DecidableEq

/-- A pattern of the scanner: the number of characters of its longest match at the head of a text,
and what the matched text yields. -/
structure Pattern where
  longest : List Char → Option Nat
  yields : List Char → Yield

/-- The length of the run of characters of a class at the head of a text, if there is one. -/
def runLength (accepts : Char → Bool) (text : List Char) : Option Nat :=
  match (text.takeWhile accepts).length with
  | 0 => none
  | length + 1 => some (length + 1)

/-- The number of characters up to the end of the first occurrence of `close`. -/
def lengthThrough (close : List Char) : List Char → Option Nat
  | [] => none
  | c :: rest =>
    if close.isPrefixOf (c :: rest) then some close.length
    else (lengthThrough close rest).map (· + 1)

/-- Space, tabulator, line feed, carriage return and form feed. -/
def isBlank (c : Char) : Bool := c == ' ' || c == '\t' || c == '\n' || c == '\r' || c == '\x0c'

/-- The characters that may start an identifier. -/
def isWordStart (c : Char) : Bool := c.isAlpha || c == '_'

/-- The characters that may continue an identifier. -/
def isWordPart (c : Char) : Bool := c.isAlphanum || c == '_'

/-- A letter of a keyword matches both of its cases, and an `S` also the long s, which has the same
capital. -/
def matchesCapital (capital c : Char) : Bool := c.toUpper == capital || (capital == 'S' && c == 'ſ')

/-- Does the text begin with the word in some mixture of cases? -/
def startsWithWord : List Char → List Char → Bool
  | [], _ => true
  | _ :: _, [] => false
  | capital :: word, c :: text => matchesCapital capital c && startsWithWord word text

/-- A keyword in any case. -/
def Pattern.keyword (mark : Mark) : Pattern where
  longest text :=
    if startsWithWord mark.spelling.toList text then some mark.spelling.toList.length else none
  yields _ := .token (.mark mark)

/-- An operator, bracket or punctuation mark. -/
def Pattern.symbol (mark : Mark) : Pattern where
  longest text :=
    if mark.spelling.toList.isPrefixOf text then some mark.spelling.toList.length else none
  yields _ := .token (.mark mark)

/-- Blanks between tokens. -/
def Pattern.blanks : Pattern where
  longest := runLength isBlank
  yields _ := .nothing

/-- A comment from an opening brace to the first closing brace. -/
def Pattern.braceComment : Pattern where
  longest
    | '\x7b' :: rest => (lengthThrough ['\x7d'] rest).map (· + 1)
    | _ => none
  yields _ := .nothing

/-- A comment from an opening parenthesis and star to the first star and closing parenthesis after
them. -/
def Pattern.starComment : Pattern where
  longest
    | '(' :: '*' :: rest => (lengthThrough ['*', ')'] rest).map (· + 2)
    | _ => none
  yields _ := .nothing

/-- The integer that a literal denotes, unless it needs more than 63 bits. -/
def integerOfLiteral? (literal : List Char) : Option Int64 :=
  let value := natOfDigits literal
  if value < Nat.pow 2 63 then some (Int64.ofNat value) else none

/-- A run of digits. -/
def Pattern.integer : Pattern where
  longest := runLength Char.isDigit
  yields literal :=
    match integerOfLiteral? literal with
    | some value => .token (.integer value)
    | none => .refused

/-- The length of an exponent: an `e` of either case, an optional sign and digits. -/
def exponentLength : List Char → Option Nat
  | c :: rest =>
    if c == 'e' || c == 'E' then
      match rest with
      | sign :: digits =>
        if sign == '+' || sign == '-' then (runLength Char.isDigit digits).map (· + 2)
        else (runLength Char.isDigit rest).map (· + 1)
      | [] => none
    else none
  | [] => none

/-- The length of a point, digits and, if one follows, an exponent. -/
def fractionLength : List Char → Option Nat
  | '.' :: rest =>
    (runLength Char.isDigit rest).map fun length =>
      1 + length + (exponentLength (rest.drop length)).getD 0
  | _ => none

/-- Digits, a point, digits, and an optional exponent. -/
def Pattern.real : Pattern where
  longest text := do
    let whole ← runLength Char.isDigit text
    let fraction ← fractionLength (text.drop whole)
    return whole + fraction
  yields literal := .token (.real (realOfLiteral literal))

/-- The length of a string literal after its opening quote. A doubled quote goes on, unless no quote
could close the literal after it: then its first half closes it. -/
def textLength : List Char → Option Nat
  | [] => none
  | '\x27' :: '\x27' :: rest =>
    match textLength rest with
    | some length => some (length + 2)
    | none => some 1
  | c :: rest => if c = '\x27' then some 1 else (textLength rest).map (· + 1)

/-- Makes one quote of every doubled one. -/
def undoubled : List Char → List Char
  | '\x27' :: '\x27' :: rest => '\x27' :: undoubled rest
  | c :: rest => c :: undoubled rest
  | [] => []

/-- A string literal between quotes, a quote inside it doubled. -/
def Pattern.text : Pattern where
  longest
    | '\x27' :: rest => (textLength rest).map (· + 1)
    | _ => none
  yields literal := .token (.text (String.ofList (undoubled literal.tail.dropLast)))

/-- A letter or underscore, then letters, digits and underscores. -/
def Pattern.identifier : Pattern where
  longest
    | c :: rest => if isWordStart c then some (1 + (rest.takeWhile isWordPart).length) else none
    | [] => none
  yields name := .token (.ident (String.ofList name))

/-- All patterns. Keywords come before identifiers, so that a tie goes to the keyword. -/
def Pattern.all : List Pattern :=
  [blanks, braceComment, starComment] ++ Mark.keywords.map keyword ++
    [integer, real, text, identifier] ++ Mark.symbols.map symbol

/-- The longer of two matches, the earlier one on a tie. -/
def Pattern.longer (text : List Char) (best : Option (Nat × Pattern)) (pattern : Pattern) :
    Option (Nat × Pattern) :=
  match pattern.longest text, best with
  | none, _ => best
  | some length, none => some (length, pattern)
  | some length, some (reach, _) => if reach < length then some (length, pattern) else best

/-- The longest match of any pattern at the head of a text. -/
def Pattern.best? (text : List Char) : Option (Nat × Pattern) := all.foldl (longer text) none

end MiniPascal
