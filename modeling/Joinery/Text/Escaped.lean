import Joinery.Text.Shape

/-!
Contract: names in descriptions.

A name is written between double quotes, with escapes for the quote, the
backslash and the characters that have no shape of their own.
-/

namespace Joinery.Text

/-- A character between double quotes. -/
def escapedChar (c : Char) : List Char :=
  if c = '"' then ['\\', '"']
  else if c = '\\' then ['\\', '\\']
  else if c = '\t' then ['\\', 't']
  else if c = '\r' then ['\\', 'r']
  else if c = '\n' then ['\\', 'n']
  else if c = '\x00' then ['\\', '0']
  else if isShapeless c then ['\\', 'u', '\x7b'] ++ Nat.toDigits 16 c.toNat ++ ['\x7d']
  else [c]

/-- A name between double quotes. -/
def escaped (name : String) : String :=
  String.ofList ('"' :: name.toList.flatMap escapedChar ++ ['"'])

end Joinery.Text
