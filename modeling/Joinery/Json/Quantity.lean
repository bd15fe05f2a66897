import Joinery.Json.Basic

/-!
Contract: the machine number that a numeral stands for.

A plain integer that fits 64 bits is kept exactly. Every other numeral
becomes a binary64 number in a fixed sequence of rounded steps
(`Numeral.toFloat?`): the leading digits that fit 64 bits are converted, then
multiplied or divided by the nearest binary64 number to a power of ten, in
pieces of at most `10 ^ 308`. The result can differ from the nearest number
in its last place; numerals beyond the finite range have no value.
-/

namespace Joinery.Json

/-- A machine number: 64 bits without sign, a negative 64-bit integer, or a
finite binary64 number. -/
inductive Quantity where
  | natural (value : UInt64)
  | negative (value : Int64)
  | float (value : Float)
deriving DecidableEq, Repr

/-- One more than the greatest 64-bit integer with a sign, and minus the least. -/
def Quantity.signedBound : Nat := 0x8000000000000000

/-- Equality of numbers of one kind; binary64 numbers compare as numbers, so
both zeros are equal. Numbers of different kinds are never equal. -/
def Quantity.same : Quantity → Quantity → Bool
  | .natural a, .natural b => a == b
  | .negative a, .negative b => a == b
  | .float a, .float b => a == b
  | _, _ => false

/-- The number as a binary64 number. -/
def Quantity.toFloat : Quantity → Float
  | .natural value => value.toFloat
  | .negative value => value.toFloat
  | .float value => value

namespace Numeral

/-- Appends decimal digits to a number for as long as it fits 64 bits, and
gives the digits from the first that does not fit. -/
def fitDigits (start : Nat) : List Char → Nat × List Char
  | [] => (start, [])
  | c :: rest =>
      let next := start * 10 + Text.digitValue c
      if next < UInt64.size then fitDigits next rest else (start, c :: rest)

/-- The binary64 number nearest to a power of ten. -/
def tenTo (power : Nat) : Float :=
  OfScientific.ofScientific 1 false power

/-- The greatest power of ten with a finite binary64 number. -/
def greatestPower : Nat := 308

/-- Divides by a power of ten, in pieces of at most `10 ^ 308`. -/
def divideByTenTo (x : Float) (power : Nat) : Float :=
  if power ≤ greatestPower then x / tenTo power
  else if x == 0 then x
  else divideByTenTo (x / tenTo greatestPower) (power - greatestPower)
termination_by power
decreasing_by simp only [greatestPower] at *; omega

/-- `significand * 10 ^ exponent`, unless that is not finite. -/
def scale? (significand : Nat) (exponent : Int) : Option Float :=
  let x := (UInt64.ofNat significand).toFloat
  if exponent < 0 then some (divideByTenTo x exponent.natAbs)
  else if exponent.natAbs ≤ greatestPower then
    let product := x * tenTo exponent.natAbs
    if product.isInf then none else some product
  else if x == 0 then some x
  else none

/-- The greatest exponent that is added up; a greater one counts as
unbounded. -/
def exponentLimit : Nat := 0x7fffffff

/-- The absolute value of a numeral as a binary64 number. -/
def magnitude? (numeral : Numeral) : Option Float :=
  let (whole, wholeRest) := fitDigits 0 numeral.whole
  let (significand, fractionRest) := fitDigits whole numeral.fraction
  let shift : Int :=
    wholeRest.length - (numeral.fraction.length - fractionRest.length)
  match numeral.exponent with
  | none => scale? significand shift
  | some (negative, digits) =>
      let exponent := Text.ofDigits digits
      if exponent ≤ exponentLimit then
        scale? significand (if negative then shift - exponent else shift + exponent)
      else if significand ≠ 0 ∧ ¬ negative then none
      else some 0

/-- The numeral as a binary64 number, rounded step by step. -/
def toFloat? (numeral : Numeral) : Option Float :=
  numeral.magnitude?.map fun x => if numeral.negative then -x else x

/-- The machine number of a numeral; `none` beyond the finite range. A
negative zero is a binary64 number, since integers have only one zero. -/
def quantity? (numeral : Numeral) : Option Quantity :=
  if numeral.IsInteger then
    let value := Text.ofDigits numeral.whole
    if ¬ numeral.negative ∧ value < UInt64.size then some (.natural (UInt64.ofNat value))
    else if numeral.negative ∧ 0 < value ∧ value ≤ Quantity.signedBound then
      some (.negative (Int64.ofInt (-value)))
    else numeral.toFloat?.map .float
  else numeral.toFloat?.map .float

end Numeral

end Joinery.Json
