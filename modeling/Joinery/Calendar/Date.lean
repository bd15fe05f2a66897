import Joinery.Text.Digits

/-!
Contract: days of the proleptic Gregorian calendar.

Every `Date` is a day that exists, in a year of the supported range. A date
is written as year, month and day with hyphens; years outside 0 to 9999
carry a sign. When a date is read, white space may stand before each number
and before each hyphen, the year may be shorter than four digits or, after a
sign, of any length, and month and day may have one digit.
-/

namespace Joinery.Calendar

def isLeap (year : Int) : Bool :=
  year % 4 = 0 && (year % 100 ≠ 0 || year % 400 = 0)

def daysInMonth (year : Int) : Nat → Nat
  | 2 => if isLeap year then 29 else 28
  | 4 => 30
  | 6 => 30
  | 9 => 30
  | 11 => 30
  | _ => 31

def firstYear : Int := -262143

def lastYear : Int := 262142

/-- The day exists and its year is in the supported range. -/
def Exists (year : Int) (month day : Nat) : Prop :=
  firstYear ≤ year ∧ year ≤ lastYear ∧ 1 ≤ month ∧ month ≤ 12 ∧
    1 ≤ day ∧ day ≤ daysInMonth year month

instance (year : Int) (month day : Nat) : Decidable (Exists year month day) := by
  unfold Exists
  infer_instance

structure Date where
  year : Int
  month : Nat
  day : Nat
  existing : Exists year month day
deriving DecidableEq, Repr

namespace Date

/-- The date of a year, month and day, if there is such a day. -/
def of? (year : Int) (month day : Nat) : Option Date :=
  if existing : Exists year month day then some ⟨year, month, day, existing⟩ else none

/-- The day after, unless the supported years end. -/
def next? (date : Date) : Option Date :=
  if date.day < daysInMonth date.year date.month then of? date.year date.month (date.day + 1)
  else if date.month < 12 then of? date.year (date.month + 1) 1
  else of? (date.year + 1) 1 1

/-- The day before, unless the supported years begin. -/
def previous? (date : Date) : Option Date :=
  if 1 < date.day then of? date.year date.month (date.day - 1)
  else if 1 < date.month then
    of? date.year (date.month - 1) (daysInMonth date.year (date.month - 1))
  else of? (date.year - 1) 12 31

/-- A year: up to four digits, or a sign and any number of digits. -/
def readYear (text : List Char) : Option (Int × List Char) :=
  match Text.skipBlank text with
  | '-' :: rest =>
      (Text.readNumber 1 rest.length rest).map fun (year, rest) => (-(year : Int), rest)
  | '+' :: rest =>
      (Text.readNumber 1 rest.length rest).map fun (year, rest) => ((year : Int), rest)
  | text => (Text.readNumber 1 4 text).map fun (year, rest) => ((year : Int), rest)

/-- One or two digits, after white space. -/
def readPair (text : List Char) : Option (Nat × List Char) :=
  Text.readNumber 1 2 (Text.skipBlank text)

/-- A date at the start of a text. -/
def read (text : List Char) : Option (Date × List Char) := do
  let (year, text) ← readYear text
  let text ← Text.readChar '-' (Text.skipBlank text)
  let (month, text) ← readPair text
  let text ← Text.readChar '-' (Text.skipBlank text)
  let (day, text) ← readPair text
  let date ← of? year month day
  some (date, text)

/-- The date that a whole text denotes. -/
def ofString? (source : String) : Option Date := do
  let (date, rest) ← read source.toList
  if Text.skipBlank rest = [] then some date else none

/-- The text of a year: four digits, or a sign and at least four. -/
def yearText (year : Int) : String :=
  if 0 ≤ year ∧ year ≤ 9999 then Text.padded 4 year.natAbs
  else (if year < 0 then "-" else "+") ++ Text.padded 4 year.natAbs

/-- Year, month and day with hyphens. -/
def toText (date : Date) : String :=
  yearText date.year ++ "-" ++ Text.padded 2 date.month ++ "-" ++ Text.padded 2 date.day

end Date

end Joinery.Calendar
