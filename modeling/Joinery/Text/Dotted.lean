/-!
Contract: names joined by dots.

`segments` cuts a text at every dot and keeps empty pieces, so a text with
`n` dots has `n + 1` segments. The last segment is the name that is looked up,
and those before it are the hops that lead there.
-/

namespace Joinery.Text

/-- The pieces between the dots of a text, in order, empty ones included. -/
def segments : List Char → List (List Char)
  | [] => [[]]
  | c :: rest =>
      if c = '.' then [] :: segments rest
      else
        match segments rest with
        | [] => [[c]]
        | first :: others => (c :: first) :: others

/-- A dotted name read as the hops before its last dot and the name after it. -/
structure DottedName where
  hops : List String
  last : String
deriving DecidableEq, Repr

/-- Splits a dotted name at its last dot, and what stands before at every dot. -/
def DottedName.ofString (dotted : String) : DottedName :=
  let pieces := (segments dotted.toList).map String.ofList
  { hops := pieces.dropLast, last := pieces.getLastD "" }

end Joinery.Text
