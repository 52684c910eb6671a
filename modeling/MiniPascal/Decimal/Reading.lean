namespace MiniPascal

/-- The natural number that a row of decimal digits denotes. -/
def natOfDigits (digits : List Char) : Nat :=
  digits.foldl (fun value digit => 10 * value + (digit.toNat - '0'.toNat)) 0

/-- The real nearest to `significand * 10 ^ exponent`. Values of 10^310 and more are infinite and
values below 10^-330 are zero, so no power outside that range is ever computed. -/
def realOfDecimal (significand : Nat) (exponent : Int) : Float :=
  let leading := exponent + (Nat.toDigits 10 significand).length
  if significand = 0 ∨ leading < -330 then 0.0
  else if leading > 310 then 1.0 / 0.0
  else Float.ofScientific significand (exponent < 0) exponent.natAbs

/-- The real that a literal denotes: digits, a point, digits, and an optional signed exponent after
an `e` of either case. -/
def realOfLiteral (literal : List Char) : Float :=
  let whole := literal.takeWhile Char.isDigit
  let afterPoint := (literal.drop whole.length).drop 1
  let fraction := afterPoint.takeWhile Char.isDigit
  let exponent : Int := match (afterPoint.drop fraction.length).drop 1 with
    | '-' :: digits => -natOfDigits digits
    | '+' :: digits => natOfDigits digits
    | digits => natOfDigits digits
  realOfDecimal (natOfDigits (whole ++ fraction)) (exponent - fraction.length)

end MiniPascal
