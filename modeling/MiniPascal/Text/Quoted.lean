import MiniPascal.Text.Hidden

namespace MiniPascal

/-- The written form of one character inside quotes: the common controls have letters, the enclosing
quote and the backslash are preceded by a backslash, hidden characters are written by number, and
all else stands for itself. -/
def escaped (quote : Char) (c : Char) : List Char :=
  if c = '\x00' then ['\x5c', '0']
  else if c = '\t' then ['\x5c', 't']
  else if c = '\r' then ['\x5c', 'r']
  else if c = '\n' then ['\x5c', 'n']
  else if c = quote ∨ c = '\x5c' then ['\x5c', c]
  else if ' ' ≤ c ∧ c ≤ '~' then [c]
  else if isHidden c then
    '\x5c' :: 'u' :: '\x7b' :: (Nat.toDigits 16 c.toNat ++ ['\x7d'])
  else [c]

/-- A text in double quotes. -/
def quoted (text : String) : String :=
  String.ofList ('\x22' :: (text.toList.flatMap (escaped '\x22') ++ ['\x22']))

/-- A character in single quotes. -/
def quotedChar (c : Char) : String := String.ofList ('\x27' :: (escaped '\x27' c ++ ['\x27']))

end MiniPascal
