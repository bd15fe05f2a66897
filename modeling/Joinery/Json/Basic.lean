import Joinery.Text.Digits

/-!
Contract: JSON trees as they are written.

A tree keeps what a reader of some particular shape may need to see: numbers
stay numerals (so that their range and exactness are the reader's decision),
objects keep their members in order and with repetitions, and a string
literal whose escapes leave half of a surrogate pair is well formed although
it denotes no text.
-/

namespace Joinery

/-- A JSON number as it is written: sign, digits before the point, digits
after the point (none when there is no point), and the exponent. -/
structure Json.Numeral where
  negative : Bool
  whole : List Char
  fraction : List Char
  exponent : Option (Bool × List Char)
deriving DecidableEq, Repr

/-- What a string literal denotes; `none` when an escaped half of a surrogate
pair stands without its partner. -/
abbrev Json.Literal := Option String

/-- A JSON value. -/
inductive Json where
  | null
  | bool (value : Bool)
  | number (numeral : Json.Numeral)
  | string (literal : Json.Literal)
  | array (items : List Json)
  | object (members : List (Json.Literal × Json))
deriving Repr, Inhabited

namespace Json

/-- The string literal that denotes a given text. -/
def text (content : String) : Json :=
  .string (some content)

/-- An object whose member names are given as texts. -/
def record (members : List (String × Json)) : Json :=
  .object (members.map fun member => (some member.1, member.2))

/-- The numeral of an integer. -/
def Numeral.ofInt (value : Int) : Numeral :=
  { negative := decide (value < 0)
    whole := (toString value.natAbs).toList
    fraction := []
    exponent := none }

/-- The number that is a given integer. -/
def int (value : Int) : Json :=
  .number (.ofInt value)

/-- Written as a plain integer, without point and exponent. -/
def Numeral.IsInteger (numeral : Numeral) : Prop :=
  numeral.fraction = [] ∧ numeral.exponent = none

instance (numeral : Numeral) : Decidable numeral.IsInteger := by
  unfold Numeral.IsInteger
  infer_instance

mutual

/-- How deep arrays and objects nest. -/
def depth : Json → Nat
  | .array items => itemsDepth items + 1
  | .object members => membersDepth members + 1
  | _ => 0
termination_by structural x => x

def itemsDepth : List Json → Nat
  | [] => 0
  | item :: items => max (depth item) (itemsDepth items)
termination_by structural x => x

def membersDepth : List (Literal × Json) → Nat
  | [] => 0
  | member :: members => max (memberDepth member) (membersDepth members)
termination_by structural x => x

def memberDepth : Literal × Json → Nat
  | (_, value) => depth value
termination_by structural x => x

end

/-- The values of all members of a given name, in order. -/
def membersNamed (name : String) (members : List (Literal × Json)) : List Json :=
  members.filterMap fun member => if member.1 = some name then some member.2 else none

end Json

end Joinery
