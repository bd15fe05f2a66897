import Joinery.Calendar.Date

/-!
Contract: points in time in coordinated universal time.

A timestamp is a date, a second of that day and a number of nanoseconds. A
leap second is the second 59 of its minute with more than a thousand million
nanoseconds. Timestamps are read in the form of RFC 3339 with an offset from
universal time, leniently about white space and the width of numbers, and
are written in universal time with as few groups of three digits after the
point as hold the fraction.
-/

namespace Joinery.Calendar

structure Timestamp where
  date : Date
  second : Nat
  nanosecond : Nat
deriving DecidableEq, Repr

namespace Timestamp

def secondsPerDay : Nat := 86400

def nanosecondsPerSecond : Nat := 1000000000

/-! ## Reading -/

/-- A time of day, in seconds since midnight and nanoseconds. -/
structure TimeOfDay where
  second : Nat
  nanosecond : Nat

/-- The fraction after a point as nanoseconds; digits beyond the ninth have
no influence. Without a point it is zero. -/
def readFraction : List Char → Option (Nat × List Char)
  | '.' :: text =>
      match Text.spanDigits text.length text with
      | ([], _) => none
      | (digits, rest) =>
          let kept := digits.take 9
          some (Text.ofDigits kept * Nat.pow 10 (9 - kept.length), rest)
  | text => some (0, text)

/-- Hours, minutes and seconds with colons, and a fraction. The second 60 is
a leap second. -/
def readTime (text : List Char) : Option (TimeOfDay × List Char) := do
  let (hour, text) ← Date.readPair text
  let text ← Text.readChar ':' (Text.skipBlank text)
  let (minute, text) ← Date.readPair text
  let text ← Text.readChar ':' (Text.skipBlank text)
  let (second, text) ← Date.readPair text
  let (fraction, text) ← readFraction text
  if hour ≤ 23 ∧ minute ≤ 59 ∧ second ≤ 60 then
    let whole := hour * 3600 + minute * 60
    if second = 60 then some (⟨whole + 59, nanosecondsPerSecond + fraction⟩, text)
    else some (⟨whole + second, fraction⟩, text)
  else none

/-- Exactly two digits. -/
def readTwo (text : List Char) : Option (Nat × List Char) :=
  Text.readNumber 2 2 text

/-- An offset without its sign, in seconds: two digits of hours, any colons
and white space, two digits of minutes. -/
def readOffsetSize (text : List Char) : Option (Nat × List Char) := do
  let (hours, text) ← readTwo text
  let (minutes, text) ← readTwo (text.dropWhile fun c => c = ':' || Text.isBlank c)
  if minutes ≤ 59 then some (hours * 3600 + minutes * 60, text) else none

/-- An offset from universal time in seconds, east positive: `Z`, `UTC` in
either case, or a signed number of hours and minutes. The sign may be the
mathematical minus. -/
def readOffset : List Char → Option (Int × List Char)
  | [] => none
  | c :: rest =>
      if ((c :: rest).take 3).map Char.toUpper = ['U', 'T', 'C'] then
        some (0, rest.drop 2)
      else if c = 'Z' ∨ c = 'z' then some (0, rest)
      else if c = '+' then (readOffsetSize rest).map fun (size, rest) => ((size : Int), rest)
      else if c = '-' ∨ c = '\u2212' then
        (readOffsetSize rest).map fun (size, rest) => (-(size : Int), rest)
      else none

/-- The point in time of a local date and time at an offset of less than a
day. -/
def ofLocal? (date : Date) (time : TimeOfDay) (offset : Int) : Option Timestamp :=
  let second := (time.second : Int) - offset
  if secondsPerDay ≤ offset.natAbs then none
  else if second < 0 then
    date.previous?.map (⟨·, (second + secondsPerDay).toNat, time.nanosecond⟩)
  else if second < secondsPerDay then some ⟨date, second.toNat, time.nanosecond⟩
  else date.next?.map (⟨·, (second - secondsPerDay).toNat, time.nanosecond⟩)

/-- The mark between date and time. -/
def isMark (c : Char) : Bool :=
  c = 'T' || c = 't' || c = ' '

/-- The point in time that a whole text denotes. -/
def ofString? (source : String) : Option Timestamp := do
  let (date, text) ← Date.read source.toList
  match text with
  | [] => none
  | mark :: text =>
      if isMark mark then do
        let (time, text) ← readTime text
        let (offset, text) ← readOffset (Text.skipBlank text)
        if Text.skipBlank text = [] then ofLocal? date time offset else none
      else none

/-! ## Writing -/

/-- The fraction with its point, none when it is zero. -/
def fractionText (nanosecond : Nat) : String :=
  if nanosecond = 0 then ""
  else if nanosecond % 1000000 = 0 then "." ++ Text.padded 3 (nanosecond / 1000000)
  else if nanosecond % 1000 = 0 then "." ++ Text.padded 6 (nanosecond / 1000)
  else "." ++ Text.padded 9 nanosecond

/-- Date and time in universal time. -/
def toText (timestamp : Timestamp) : String :=
  let leap := timestamp.nanosecond / nanosecondsPerSecond
  timestamp.date.toText ++ "T" ++ Text.padded 2 (timestamp.second / 3600) ++ ":" ++
    Text.padded 2 (timestamp.second / 60 % 60) ++ ":" ++
    Text.padded 2 (timestamp.second % 60 + leap) ++
    fractionText (timestamp.nanosecond % nanosecondsPerSecond) ++ "Z"

end Timestamp

end Joinery.Calendar
