import MiniPascal.Token.Pattern

namespace MiniPascal

/-- The first character of a stretch of source that is no token, and its span. -/
structure ScanError where
  char : Char
  span : Span
deriving DecidableEq

/-- What a source text is read as: the tokens before the first failure, with the end of the input
last if there is none. -/
structure Scan where
  lexemes : List Lexeme
  failure : Option ScanError
deriving DecidableEq

/-- The number of bytes of a text. -/
def byteLength (text : List Char) : Nat := text.foldr (fun c length => c.utf8Size + length) 0

/-- How much of a text no pattern matches: an unclosed string or comment reaches to the end of the
source, anything else is one character. -/
def unmatchedLength : List Char → Nat
  | [] => 0
  | c :: rest => if c = '\x27' ∨ c = '\x7b' then rest.length + 1 else 1

/-- Puts a token before those of a scan. -/
def Scan.cons (lexeme : Lexeme) (scan : Scan) : Scan := ⟨lexeme :: scan.lexemes, scan.failure⟩

/-- Reads the text at byte `offset`, after passing over `skip` characters that belong to the match
before it. -/
def Scan.startingAt (offset : Nat) : Nat → List Char → Scan
  | _, [] => ⟨[⟨.mark .endOfInput, .point offset⟩], none⟩
  | skip + 1, c :: rest => Scan.startingAt (offset + c.utf8Size) skip rest
  | 0, c :: rest =>
    match Pattern.best? (c :: rest) with
    | none =>
      let taken := (c :: rest).take (unmatchedLength (c :: rest))
      ⟨[], some ⟨c, offset, offset + byteLength taken⟩⟩
    | some (length, pattern) =>
      let taken := (c :: rest).take length
      let span : Span := ⟨offset, offset + byteLength taken⟩
      let after := Scan.startingAt (offset + c.utf8Size) (length - 1) rest
      match pattern.yields taken with
      | .nothing => after
      | .token token => after.cons ⟨token, span⟩
      | .refused => ⟨[], some ⟨c, span⟩⟩

/-- Reads a whole source text. -/
def scan (source : String) : Scan := Scan.startingAt 0 0 source.toList

/-- The tokens of a scan in order, and its failure after them. -/
def Scan.items (scan : Scan) : List (Except ScanError Lexeme) :=
  scan.lexemes.map .ok ++ scan.failure.toList.map .error

/-- The tokens of a scan, unless it failed. -/
def Scan.result (scan : Scan) : Except ScanError (List Lexeme) :=
  match scan.failure with
  | none => .ok scan.lexemes
  | some failure => .error failure

end MiniPascal
