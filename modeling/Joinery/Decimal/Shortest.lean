/-!
Contract: the shortest decimal that reads back as a given binary64 number.

A finite number other than zero is `significand * 2 ^ exponent`. The real
numbers that round to it form an interval, closed exactly when the
significand is even. For one digit, two digits and so on, `shortest` looks
at the two neighbours of the number among the decimals of so many digits;
the first grid with a neighbour inside the interval decides, and of two such
neighbours the nearer is taken. Seventeen digits always suffice. All
arithmetic is exact.
-/

namespace Joinery.Decimal

/-- A power of two. -/
def twoTo (power : Nat) : Nat :=
  Nat.pow 2 power

/-- A power of ten. -/
def tenTo (power : Nat) : Nat :=
  Nat.pow 10 power

/-- A positive rational number. -/
structure Ratio where
  numerator : Nat
  denominator : Nat
deriving Repr

namespace Ratio

/-- `numerator * 2 ^ exponent`. -/
def ofBinary (numerator : Nat) (exponent : Int) : Ratio :=
  if exponent < 0 then ⟨numerator, twoTo exponent.natAbs⟩
  else ⟨numerator * twoTo exponent.natAbs, 1⟩

/-- `digits * 10 ^ exponent`. -/
def ofDecimal (digits : Nat) (exponent : Int) : Ratio :=
  if exponent < 0 then ⟨digits, tenTo exponent.natAbs⟩
  else ⟨digits * tenTo exponent.natAbs, 1⟩

def less (a b : Ratio) : Bool :=
  a.numerator * b.denominator < b.numerator * a.denominator

def atMost (a b : Ratio) : Bool :=
  !b.less a

/-- The greatest `n` with `n * 10 ^ exponent` at most the number. -/
def floorAt (a : Ratio) (exponent : Int) : Nat :=
  if exponent < 0 then a.numerator * tenTo exponent.natAbs / a.denominator
  else a.numerator / (a.denominator * tenTo exponent.natAbs)

/-- Twice the number compared with the sum of two others: whether the number
is nearer to the first than to the second, which lies above. -/
def nearerToLower (a lower upper : Ratio) : Bool :=
  2 * a.numerator * lower.denominator * upper.denominator ≤
    (lower.numerator * upper.denominator + upper.numerator * lower.denominator) *
      a.denominator

/-- The exponent of the first decimal digit: the greatest `e` with `10 ^ e`
at most the number. Binary64 numbers keep it between `-324` and `308`. -/
def leadingExponent (a : Ratio) : Int :=
  if a.denominator ≤ a.numerator then
    ((toString (a.numerator / a.denominator)).length : Int) - 1
  else
    match (List.range 400).find? fun places =>
        decide (a.denominator ≤ a.numerator * tenTo places) with
    | some places => -(places : Int)
    | none => 0

end Ratio

/-- A decimal `digits * 10 ^ exponent`. -/
structure Scientific where
  digits : Nat
  exponent : Int
deriving DecidableEq, Repr

/-- A positive binary64 number with the bounds of its rounding interval. -/
structure Rounding where
  value : Ratio
  lower : Ratio
  upper : Ratio
  closed : Bool

namespace Rounding

/-- The number and interval of `fraction`, the 52 bits of the significand
field, under a biased exponent below `2047`. Below a power of two the
numbers lie twice as dense. -/
def ofFields (biased fraction : Nat) : Rounding :=
  let significand := if biased = 0 then fraction else fraction + twoTo 52
  let exponent : Int := if biased = 0 then -1074 else biased - 1075
  let below := if fraction = 0 ∧ 1 < biased then 1 else 2
  { value := .ofBinary (4 * significand) (exponent - 2)
    lower := .ofBinary (4 * significand - below) (exponent - 2)
    upper := .ofBinary (4 * significand + 2) (exponent - 2)
    closed := significand % 2 = 0 }

/-- Whether a decimal rounds to the number. -/
def admits (rounding : Rounding) (decimal : Scientific) : Bool :=
  let ratio := Ratio.ofDecimal decimal.digits decimal.exponent
  if rounding.closed then rounding.lower.atMost ratio && ratio.atMost rounding.upper
  else rounding.lower.less ratio && ratio.less rounding.upper

/-- The decimal of a given number of digits that rounds to the number, the
nearer of the two neighbours if both do. -/
def withDigits? (rounding : Rounding) (count : Nat) : Option Scientific :=
  let exponent := rounding.value.leadingExponent - (count - 1)
  let digits := rounding.value.floorAt exponent
  let lower : Scientific := ⟨digits, exponent⟩
  let upper : Scientific := ⟨digits + 1, exponent⟩
  match rounding.admits lower, rounding.admits upper with
  | true, true =>
      if rounding.value.nearerToLower (.ofDecimal lower.digits exponent)
          (.ofDecimal upper.digits exponent) then some lower else some upper
  | true, false => some lower
  | false, true => some upper
  | false, false => none

/-- The decimal of fewest digits that rounds to the number. -/
def shortest (rounding : Rounding) : Scientific :=
  ((List.range 17).findSome? fun count => rounding.withDigits? (count + 1)).getD ⟨0, 0⟩

end Rounding

/-- Drops zeros at the end of the digits. -/
def Scientific.trim (decimal : Scientific) : Scientific :=
  go decimal.digits decimal.exponent
where
  go (digits : Nat) (exponent : Int) : Scientific :=
    if nonzero : digits = 0 then ⟨0, 0⟩
    else if digits % 10 = 0 then go (digits / 10) (exponent + 1)
    else ⟨digits, exponent⟩
  termination_by digits
  decreasing_by omega

/-- The shortest decimal of the absolute value of a finite binary64 number. -/
def shortest (x : Float) : Scientific :=
  let bits := x.toBits.toNat
  let biased := bits / twoTo 52 % twoTo 11
  let fraction := bits % twoTo 52
  if biased = 0 ∧ fraction = 0 then ⟨0, 0⟩
  else (Rounding.ofFields biased fraction).shortest.trim

end Joinery.Decimal
