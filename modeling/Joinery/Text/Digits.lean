import Joinery.Text.Blank

/-!
Contract: digits in text.

A run of decimal digits is read as the natural number it denotes
(`ofDigits`); a natural number is written with leading zeros up to a given
width (`padded`). Hexadecimal digits are read in either case and written in
lower case.
-/

namespace Joinery.Text

/-- The value of one ASCII digit. -/
def digitValue (c : Char) : Nat :=
  c.toNat - '0'.toNat

/-- The number that a run of decimal digits denotes, most significant first. -/
def ofDigits (digits : List Char) : Nat :=
  digits.foldl (fun value c => value * 10 + digitValue c) 0

/-- The leading digits of a text, at most `most` of them, and what follows. -/
def spanDigits (most : Nat) (text : List Char) : List Char × List Char :=
  let digits := (text.take most).takeWhile Char.isDigit
  (digits, text.drop digits.length)

/-- Reads a number of at least `least` and at most `most` digits, leaving the
digits beyond `most` unread. -/
def readNumber (least most : Nat) (text : List Char) : Option (Nat × List Char) :=
  match spanDigits most text with
  | (digits, rest) => if digits.length < least then none else some (ofDigits digits, rest)

/-- Reads one given character. -/
def readChar (expected : Char) : List Char → Option (List Char)
  | c :: rest => if c = expected then some rest else none
  | [] => none

/-- Decimal text of a number, filled up with leading zeros to `width`. -/
def padded (width number : Nat) : String :=
  let digits := toString number
  String.ofList (List.replicate (width - digits.length) '0') ++ digits

/-- The value of a hexadecimal digit. -/
def hexValue? (c : Char) : Option Nat :=
  if c.isDigit then some (digitValue c)
  else if 'a' ≤ c ∧ c ≤ 'f' then some (c.toNat - 'a'.toNat + 10)
  else if 'A' ≤ c ∧ c ≤ 'F' then some (c.toNat - 'A'.toNat + 10)
  else none

/-- The hexadecimal digit of a value below sixteen. -/
def hexDigit (value : Nat) : Char :=
  if value < 10 then Char.ofNat ('0'.toNat + value)
  else Char.ofNat ('a'.toNat + (value - 10))

end Joinery.Text
