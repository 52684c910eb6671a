import MiniPascal.Json.Basic
import MiniPascal.Decimal.Layout

namespace MiniPascal

/-- The written form of one character of a JSON string: quote, backslash and the control characters
are escaped, with letters where JSON has them. -/
def Json.escapedChar (c : Char) : List Char :=
  if c = '\x22' ∨ c = '\x5c' then ['\x5c', c]
  else if c = '\x08' then ['\x5c', 'b']
  else if c = '\t' then ['\x5c', 't']
  else if c = '\n' then ['\x5c', 'n']
  else if c = '\x0c' then ['\x5c', 'f']
  else if c = '\r' then ['\x5c', 'r']
  else if c < ' ' then
    let digits := Nat.toDigits 16 c.toNat
    ['\x5c', 'u'] ++ zeros (4 - digits.length) ++ digits
  else [c]

/-- A JSON string with its quotes. -/
def Json.quotedText (text : String) : String :=
  String.ofList ('\x22' :: (text.toList.flatMap escapedChar ++ ['\x22']))

/-- Starts a line at a depth of nesting; each level is indented by two spaces. -/
def Json.newline (depth : Nat) : String := String.ofList ('\n' :: List.replicate (2 * depth) ' ')

mutual

/-- Writes a value over several lines, one item or field a line; empty lists and objects stay on
one. -/
def Json.pretty (depth : Nat) : Json → String
  | .null => "null"
  | .bool true => "true"
  | .bool false => "false"
  | .int value => toString value
  | .real value => Layout.data.text value
  | .str text => quotedText text
  | .arr [] => "[]"
  | .arr (first :: rest) =>
    "[" ++ newline (depth + 1) ++ first.pretty (depth + 1) ++ prettyItems (depth + 1) rest ++
      newline depth ++ "]"
  | .obj [] => "\x7b\x7d"
  | .obj ((name, value) :: rest) =>
    "\x7b" ++ newline (depth + 1) ++ quotedText name ++ ": " ++ value.pretty (depth + 1) ++
      prettyFields (depth + 1) rest ++ newline depth ++ "\x7d"

/-- The items after the first, each after a comma. -/
def Json.prettyItems (depth : Nat) : List Json → String
  | [] => ""
  | item :: rest => "," ++ newline depth ++ item.pretty depth ++ prettyItems depth rest

/-- The fields after the first, each after a comma. -/
def Json.prettyFields (depth : Nat) : List (String × Json) → String
  | [] => ""
  | (name, value) :: rest =>
    "," ++ newline depth ++ quotedText name ++ ": " ++ value.pretty depth ++ prettyFields depth rest

end

end MiniPascal
