namespace MiniPascal

/-- Where the magnitude of a real stands: zero and the finite values are `significand * 2 ^ exponent`. -/
inductive Magnitude where
  | finite (significand : Nat) (exponent : Int)
  | infinite
  | notANumber
deriving DecidableEq

/-- Splits the 64 bits of a real into its sign and its magnitude. -/
def Magnitude.ofBits (bits : UInt64) : Bool × Magnitude :=
  let word : Nat := bits.toNat
  let biased : Nat := word / Nat.pow 2 52 % Nat.pow 2 11
  let fraction : Nat := word % Nat.pow 2 52
  let magnitude :=
    if biased = 2047 then (if fraction = 0 then .infinite else .notANumber)
    else if biased = 0 then .finite fraction (-1074)
    else .finite (fraction + Nat.pow 2 52) ((biased : Int) - 1075)
  (word / Nat.pow 2 63 = 1, magnitude)

/-- A decimal numeral `digits * 10 ^ exponent`. -/
structure Decimal where
  digits : Nat
  exponent : Int
deriving DecidableEq

/-- Which of two decimals is taken when the value lies exactly half way between them. -/
inductive Tie where
  | upper
  | even
deriving DecidableEq

/-- The factors that bring `n * 2 ^ binary` and `d * 10 ^ decimal` to a common natural scale. -/
def Decimal.scales (binary decimal : Int) : Nat × Nat :=
  (Nat.pow 2 binary.toNat * Nat.pow 10 (-decimal).toNat,
    Nat.pow 10 decimal.toNat * Nat.pow 2 (-binary).toNat)

/-- The decimals of exponent `decimal` nearest to `significand * 2 ^ exponent` that still round to
it, the nearer one if both neighbours do. All reals between the midpoints to the two neighbouring
reals round to it; the midpoints themselves do when the significand is even. Below a power of two
the lower neighbour is half as far away, which `narrow` says. -/
def Decimal.onGrid? (tie : Tie) (significand : Nat) (exponent : Int) (narrow : Bool) (decimal : Int) :
    Option Decimal :=
  let (unit, step) := scales (exponent - 2) decimal
  let value := 4 * significand * unit
  let lower := (4 * significand - if narrow then 1 else 2) * unit
  let upper := (4 * significand + 2) * unit
  let inside := fun digits =>
    if significand % 2 = 0 then decide (lower ≤ digits * step ∧ digits * step ≤ upper)
    else decide (lower < digits * step ∧ digits * step < upper)
  let below := value / step
  let above := below + 1
  let belowGap := value - below * step
  let aboveGap := above * step - value
  let takeAbove := belowGap > aboveGap ||
    (belowGap == aboveGap && (tie == .upper || below % 2 == 1))
  match inside below, inside above with
  | true, true => some ⟨if takeAbove then above else below, decimal⟩
  | true, false => some ⟨below, decimal⟩
  | false, true => some ⟨above, decimal⟩
  | false, false => none

/-- Tries grid after grid, each ten times finer than the one before. -/
def Decimal.firstOnGrid (tie : Tie) (significand : Nat) (exponent : Int) (narrow : Bool) :
    Nat → Int → Decimal
  | 0, decimal => ⟨0, decimal⟩
  | tries + 1, decimal =>
    match onGrid? tie significand exponent narrow decimal with
    | some found => found
    | none => firstOnGrid tie significand exponent narrow tries (decimal - 1)

/-- The decimal with the fewest digits that reads back as `significand * 2 ^ exponent`, and of
those the nearest. The search starts at a power of ten above the value, and seventeen digits
always suffice. -/
def Decimal.shortest (tie : Tie) (significand : Nat) (exponent : Int) : Decimal :=
  let narrow := significand == Nat.pow 2 52 && exponent > -1074
  let top := (significand.log2 + exponent + 1) * 30103 / 100000 + 1
  firstOnGrid tie significand exponent narrow 20 top

end MiniPascal
