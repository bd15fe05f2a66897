import Joinery.Json.Basic

/-!
Contract: the lexical level of JSON texts.

`Token.scan` cuts a text into tokens and skips the four white space
characters between them; it fails on anything else that is not a token.
Numerals have no leading zeros, raw control characters are not allowed in
strings, and an escape of four hexadecimal digits is a UTF-16 unit: a high
and a low surrogate in sequence make one character (`denote`).
-/

namespace Joinery.Json

inductive Token where
  | beginArray
  | endArray
  | beginObject
  | endObject
  | comma
  | colon
  | null
  | bool (value : Bool)
  | number (numeral : Numeral)
  | string (literal : Literal)
deriving DecidableEq, Repr

namespace Token

/-! ## String literals -/

/-- One piece of a string literal: a character, or a UTF-16 unit written as
an escape. -/
inductive Symbol where
  | char (c : Char)
  | unit (code : Nat)
deriving DecidableEq, Repr

/-- The character that a one-letter escape stands for. -/
def escaped? : Char → Option Char
  | '"' => some '"'
  | '\\' => some '\\'
  | '/' => some '/'
  | 'b' => some '\x08'
  | 'f' => some '\x0c'
  | 'n' => some '\n'
  | 'r' => some '\r'
  | 't' => some '\t'
  | _ => none

/-- The symbols up to the closing quote, and the text after it. -/
def symbols? : List Char → Option (List Symbol × List Char)
  | [] => none
  | '"' :: rest => some ([], rest)
  | '\\' :: 'u' :: a :: b :: c :: d :: rest => do
      let a ← Text.hexValue? a
      let b ← Text.hexValue? b
      let c ← Text.hexValue? c
      let d ← Text.hexValue? d
      let (symbols, rest) ← symbols? rest
      some (.unit (((a * 16 + b) * 16 + c) * 16 + d) :: symbols, rest)
  | '\\' :: letter :: rest => do
      let c ← escaped? letter
      let (symbols, rest) ← symbols? rest
      some (.char c :: symbols, rest)
  | c :: rest =>
      if c.toNat < 0x20 then none
      else do
        let (symbols, rest) ← symbols? rest
        some (.char c :: symbols, rest)

def isHighSurrogate (code : Nat) : Bool :=
  0xd800 ≤ code && code < 0xdc00

def isLowSurrogate (code : Nat) : Bool :=
  0xdc00 ≤ code && code < 0xe000

/-- The characters that symbols denote, if every surrogate has its partner. -/
def denote : List Symbol → Option (List Char)
  | [] => some []
  | .char c :: rest => (denote rest).map (c :: ·)
  | .unit high :: .unit low :: rest =>
      if isHighSurrogate high then
        if isLowSurrogate low then
          (denote rest).map
            (Char.ofNat (0x10000 + (high - 0xd800) * 0x400 + (low - 0xdc00)) :: ·)
        else none
      else if isLowSurrogate high then none
      else (denote (.unit low :: rest)).map (Char.ofNat high :: ·)
  | .unit code :: rest =>
      if isHighSurrogate code || isLowSurrogate code then none
      else (denote rest).map (Char.ofNat code :: ·)

/-- The string literal whose opening quote has been read. -/
def string? (text : List Char) : Option (Token × List Char) := do
  let (symbols, rest) ← symbols? text
  some (.string ((denote symbols).map String.ofList), rest)

/-! ## Numerals -/

/-- A run of at least one digit. -/
def digits? (text : List Char) : Option (List Char × List Char) :=
  match Text.spanDigits text.length text with
  | ([], _) => none
  | (digits, rest) => some (digits, rest)

/-- The digits before the point: a single zero, or a run that does not start
with one. -/
def whole? : List Char → Option (List Char × List Char)
  | '0' :: rest => some (['0'], rest)
  | text => digits? text

/-- The digits after a point, none when there is no point. -/
def fraction? : List Char → Option (List Char × List Char)
  | '.' :: rest => digits? rest
  | text => some ([], text)

/-- The exponent, if the text starts with its mark. -/
def exponent? : List Char → Option (Option (Bool × List Char) × List Char)
  | [] => some (none, [])
  | mark :: rest =>
      if mark = 'e' ∨ mark = 'E' then
        match rest with
        | '-' :: rest => (digits? rest).map fun (digits, rest) => (some (true, digits), rest)
        | '+' :: rest => (digits? rest).map fun (digits, rest) => (some (false, digits), rest)
        | rest => (digits? rest).map fun (digits, rest) => (some (false, digits), rest)
      else some (none, mark :: rest)

/-- A number without its sign. -/
def magnitude? (negative : Bool) (text : List Char) : Option (Token × List Char) := do
  let (whole, text) ← whole? text
  let (fraction, text) ← fraction? text
  let (exponent, text) ← exponent? text
  some (.number { negative, whole, fraction, exponent }, text)

/-! ## Whole texts -/

/-- The white space of JSON. -/
def isSpace (c : Char) : Bool :=
  c = ' ' || c = '\t' || c = '\n' || c = '\r'

/-- The first token of a text that starts with one, and the text after it. -/
def next? : List Char → Option (Token × List Char)
  | '[' :: rest => some (.beginArray, rest)
  | ']' :: rest => some (.endArray, rest)
  | '\x7b' :: rest => some (.beginObject, rest)
  | '\x7d' :: rest => some (.endObject, rest)
  | ',' :: rest => some (.comma, rest)
  | ':' :: rest => some (.colon, rest)
  | '"' :: rest => string? rest
  | '-' :: rest => magnitude? true rest
  | 'n' :: 'u' :: 'l' :: 'l' :: rest => some (.null, rest)
  | 't' :: 'r' :: 'u' :: 'e' :: rest => some (.bool true, rest)
  | 'f' :: 'a' :: 'l' :: 's' :: 'e' :: rest => some (.bool false, rest)
  | text => magnitude? false text

/-- Cuts a text into tokens, at most `fuel` of them. -/
def scanUpTo : Nat → List Char → Option (List Token)
  | fuel, text =>
      match text.dropWhile isSpace with
      | [] => some []
      | c :: rest =>
          match fuel with
          | 0 => none
          | fuel + 1 => do
              let (token, rest) ← next? (c :: rest)
              let tokens ← scanUpTo fuel rest
              some (token :: tokens)

/-- The tokens of a text. A text has no more tokens than characters. -/
def scan (text : List Char) : Option (List Token) :=
  scanUpTo text.length text

end Token

end Joinery.Json
