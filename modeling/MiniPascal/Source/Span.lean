namespace MiniPascal

/-- Half-open range of byte offsets into the UTF-8 text of a program. -/
structure Span where
  start : Nat
  stop : Nat
deriving DecidableEq

/-- The empty span at one offset. -/
def Span.point (offset : Nat) : Span := ⟨offset, offset⟩

/-- The smallest span that covers both. -/
def Span.merge (left right : Span) : Span := ⟨min left.start right.start, max left.stop right.stop⟩

/-- Diagnostics write a span as its two offsets around two dots. -/
def Span.text (span : Span) : String := toString span.start ++ ".." ++ toString span.stop

end MiniPascal
