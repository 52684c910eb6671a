import MiniPascal.Decimal.Shortest

namespace MiniPascal

/-- How a real is written: which exponents of the leading digit are written positionally, what
follows a whole number, what stands before a non-negative exponent, and where a tie goes. -/
structure Layout where
  positional : Int → Bool
  whole : String
  exponentSign : String
  tie : Tie

/-- Program output: always positional, and a whole number has no point. -/
def Layout.plain : Layout := ⟨fun _ => true, "", "", .upper⟩

/-- Diagnostics: positional from `0.0001` up to sixteen digits, and always visibly a real. -/
def Layout.debug : Layout := ⟨fun exponent => -4 ≤ exponent ∧ exponent ≤ 15, ".0", "", .upper⟩

/-- Data files: positional from `0.00001` up to sixteen digits, and exponents carry their sign. -/
def Layout.data : Layout := ⟨fun exponent => -5 ≤ exponent ∧ exponent ≤ 15, ".0", "+", .even⟩

/-- A row of zeros. -/
def zeros (count : Nat) : List Char := List.replicate count '0'

/-- Puts the point after `point` digits; a point outside the digits is reached with zeros. -/
def Layout.placePoint (layout : Layout) (digits : List Char) (point : Int) : List Char :=
  if point ≤ 0 then '0' :: '.' :: (zeros (-point).toNat ++ digits)
  else if digits.length ≤ point.toNat then
    digits ++ zeros (point.toNat - digits.length) ++ layout.whole.toList
  else digits.take point.toNat ++ '.' :: digits.drop point.toNat

/-- One digit, the others after a point, and the exponent of the first. -/
def Layout.scientific (layout : Layout) (digits : List Char) (exponent : Int) : List Char :=
  let mantissa := match digits with
    | first :: second :: rest => first :: '.' :: second :: rest
    | short => short
  let sign := if exponent < 0 then "" else layout.exponentSign
  mantissa ++ 'e' :: (sign.toList ++ (toString exponent).toList)

/-- The text of a non-negative finite value. -/
def Layout.magnitude (layout : Layout) (significand : Nat) (exponent : Int) : List Char :=
  if significand = 0 then '0' :: layout.whole.toList
  else
    let decimal := Decimal.shortest layout.tie significand exponent
    let digits := Nat.toDigits 10 decimal.digits
    let leading := decimal.exponent + digits.length - 1
    if layout.positional leading then layout.placePoint digits (leading + 1)
    else layout.scientific digits leading

/-- The text of a real. -/
def Layout.text (layout : Layout) (value : Float) : String :=
  match Magnitude.ofBits value.toBits with
  | (_, .notANumber) => "NaN"
  | (negative, .infinite) => if negative then "-inf" else "inf"
  | (negative, .finite significand exponent) =>
    String.ofList ((if negative then ['-'] else []) ++ layout.magnitude significand exponent)

end MiniPascal
