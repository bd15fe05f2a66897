import Joinery.Json.Basic

/-!
Contract: the compact text of JSON trees.

Members and items are written in order without white space. In strings the
quote, the backslash and the control characters are escaped, in the short form
where there is one, and all else stands for itself. A literal that denotes no
text is written as an escaped high surrogate, which again denotes none.
-/

namespace Joinery.Json

/-- The letter of the short escape of a character. -/
def escapeLetter? : Char → Option Char
  | '"' => some '"'
  | '\\' => some '\\'
  | '\x08' => some 'b'
  | '\x0c' => some 'f'
  | '\n' => some 'n'
  | '\r' => some 'r'
  | '\t' => some 't'
  | _ => none

/-- A character inside a string literal. -/
def escape (c : Char) : List Char :=
  match escapeLetter? c with
  | some letter => ['\\', letter]
  | none =>
      if c.toNat < 0x20 then
        ['\\', 'u', '0', '0', Text.hexDigit (c.toNat / 16), Text.hexDigit (c.toNat % 16)]
      else [c]

/-- The quoted form of a text. -/
def quote (content : String) : String :=
  String.ofList ('"' :: content.toList.flatMap escape ++ ['"'])

/-- The written form of a string literal. -/
def Literal.print : Literal → String
  | some content => quote content
  | none => "\"\\ud800\""

/-- The written form of a numeral. -/
def Numeral.print (numeral : Numeral) : String :=
  let sign := if numeral.negative then "-" else ""
  let point := if numeral.fraction = [] then "" else "."
  let exponent :=
    match numeral.exponent with
    | none => ""
    | some (negative, digits) => (if negative then "e-" else "e") ++ String.ofList digits
  sign ++ String.ofList numeral.whole ++ point ++ String.ofList numeral.fraction ++ exponent

mutual

/-- The compact text of a tree. -/
def print : Json → String
  | .null => "null"
  | .bool value => if value then "true" else "false"
  | .number numeral => numeral.print
  | .string literal => Literal.print literal
  | .array [] => "[]"
  | .array (item :: items) => "[" ++ print item ++ printItems items
  | .object [] => "\x7b\x7d"
  | .object ((name, value) :: members) =>
      "\x7b" ++ Literal.print name ++ ":" ++ print value ++ printMembers members

/-- The items after the first, and the end of the array. -/
def printItems : List Json → String
  | [] => "]"
  | item :: items => "," ++ print item ++ printItems items

/-- The members after the first, and the end of the object. -/
def printMembers : List (Literal × Json) → String
  | [] => "\x7d"
  | (name, value) :: members =>
      "," ++ Literal.print name ++ ":" ++ print value ++ printMembers members

end

end Joinery.Json
