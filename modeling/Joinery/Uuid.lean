import Joinery.Text.Digits

/-!
Contract: universally unique identifiers and their texts.

An identifier is 128 bits. `Uuid.ofString?` accepts 32 hexadecimal digits of
either case, without hyphens or with hyphens in the places 8-4-4-4-12, the
latter also in braces or after `urn:uuid:` in either case. `Uuid.toText`
writes the hyphenated form in lower case.
-/

namespace Joinery

structure Uuid where
  bits : BitVec 128
deriving DecidableEq, Repr

namespace Uuid

/-- The identifier of exactly 32 hexadecimal digits. -/
def ofDigits? (digits : List Char) : Option Uuid := do
  let values ← digits.mapM Text.hexValue?
  if digits.length = 32 then
    some ⟨BitVec.ofNat 128 (values.foldl (fun value digit => value * 16 + digit) 0)⟩
  else none

/-- The lengths of the groups between the hyphens. -/
def groups : List Nat := [8, 4, 4, 4, 12]

/-- The digits of a text in hyphenated form. -/
def unhyphenate? : List Nat → List Char → Option (List Char)
  | [], _ => none
  | [last], text => if text.length = last then some text else none
  | group :: others, text =>
      match text.drop group with
      | '-' :: rest => (unhyphenate? others rest).map (text.take group ++ ·)
      | _ => none

/-- The identifier of a hyphenated text. -/
def ofHyphenated? (text : List Char) : Option Uuid :=
  (unhyphenate? groups text).bind ofDigits?

/-- The identifier that a text denotes in any of the four forms. -/
def ofString? (source : String) : Option Uuid :=
  match source.length, source.toList with
  | 32, text => ofDigits? text
  | 36, text => ofHyphenated? text
  | 38, '\x7b' :: text =>
      match text.getLast? with
      | some '\x7d' => ofHyphenated? text.dropLast
      | _ => none
  | 45, text =>
      if (text.take 9).map Char.toLower = "urn:uuid:".toList then
        ofHyphenated? (text.drop 9)
      else none
  | _, _ => none

/-- The digits of the identifier, 32 of them. -/
def digits (uuid : Uuid) : List Char :=
  (List.range 32).map fun place =>
    Text.hexDigit (uuid.bits.toNat >>> (4 * (31 - place)) % 16)

/-- Writes digits in groups with hyphens between them. -/
def hyphenate : List Nat → List Char → List Char
  | [], digits => digits
  | [_], digits => digits
  | group :: others, digits =>
      digits.take group ++ '-' :: hyphenate others (digits.drop group)

/-- The hyphenated text in lower case. -/
def toText (uuid : Uuid) : String :=
  String.ofList (hyphenate groups uuid.digits)

end Uuid

end Joinery
