namespace MiniPascal

/-- Characters that end a line of a diagnostic. A carriage return and the line feed after it end one
line together. -/
def isLineEnd (c : Char) : Bool :=
  c == '\r' || c == '\n' || c == '\x0b' || c == '\x0c' || c == '\u0085' || c == '\u2028' || c == '\u2029'

/-- The number of characters of each line, its line end included. A line end at the very end of the
text opens no further line, and an empty text is one empty line. -/
def lineLengths (length : Nat) : List Char → List Nat
  | [] => if length = 0 then [] else [length]
  | '\r' :: '\n' :: rest => (length + 2) :: lineLengths 0 rest
  | c :: rest => if isLineEnd c then (length + 1) :: lineLengths 0 rest else lineLengths (length + 1) rest

/-- Line and column, both counted from one. -/
structure Position where
  line : Nat
  column : Nat
deriving DecidableEq

/-- The position of an offset within lines of the given lengths: an offset past the last line
belongs to it. -/
def Position.locate (line offset : Nat) : List Nat → Position
  | [] => ⟨line, offset + 1⟩
  | length :: rest =>
    if offset < length ∨ rest = [] then ⟨line, offset + 1⟩ else locate (line + 1) (offset - length) rest

/-- The position that a report prints for an offset: the offset counts characters, and one past the
end of the text has no position. -/
def Position.ofOffset? (source : String) (offset : Nat) : Option Position :=
  if offset ≤ source.length then some (locate 1 offset (lineLengths 0 source.toList)) else none

/-- The text of a position; an unknown one shows a question mark for each number. -/
def Position.text : Option Position → String
  | some position => toString position.line ++ ":" ++ toString position.column
  | none => "?:?"

end MiniPascal
