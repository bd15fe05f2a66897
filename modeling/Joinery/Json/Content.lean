import Joinery.Decimal.Shortest
import Joinery.Json.Quantity

/-!
Contract: JSON data, free of the accidents of its text.

In `Content` numbers are machine numbers and objects have each member once,
sorted by name, so equality does not depend on the order in which an object
was written. Of members with the same name the last one counts. Reading
fails for numbers beyond the finite range, for literals that denote no text,
and for nesting deeper than a given bound.
-/

namespace Joinery.Json

inductive Content where
  | null
  | bool (value : Bool)
  | number (quantity : Quantity)
  | text (content : String)
  | array (items : List Content)
  | object (members : List (String × Content))
deriving Repr

namespace Content

mutual

/-- Equality of data. Numbers compare as machine numbers. -/
def same : Content → Content → Bool
  | .null, .null => true
  | .bool a, .bool b => a == b
  | .number a, .number b => a.same b
  | .text a, .text b => a == b
  | .array a, .array b => sameItems a b
  | .object a, .object b => sameMembers a b
  | _, _ => false
termination_by structural x => x

def sameItems : List Content → List Content → Bool
  | [], [] => true
  | a :: as, b :: bs => same a b && sameItems as bs
  | _, _ => false
termination_by structural x => x

def sameMembers : List (String × Content) → List (String × Content) → Bool
  | [], [] => true
  | a :: as, b :: bs => sameMember a b && sameMembers as bs
  | _, _ => false
termination_by structural x => x

def sameMember : String × Content → String × Content → Bool
  | (name, a), (name', b) => name == name' && same a b
termination_by structural x => x

end

instance : BEq Content := ⟨same⟩

/-- Puts a member into members sorted by name, over a member of that name. -/
def insertMember (name : String) (value : Content) :
    List (String × Content) → List (String × Content)
  | [] => [(name, value)]
  | member :: others =>
      if name < member.1 then (name, value) :: member :: others
      else if name = member.1 then (name, value) :: others
      else member :: insertMember name value others

/-- Members in the order of their names, the last of each name. -/
def ofMembers (members : List (String × Content)) : List (String × Content) :=
  members.foldl (fun sorted member => insertMember member.1 member.2 sorted) []

mutual

/-- The data of a tree whose arrays and objects nest at most `nesting`
levels deep. -/
def ofJson? (nesting : Nat) : Json → Option Content
  | .null => some .null
  | .bool value => some (.bool value)
  | .number numeral => numeral.quantity?.map .number
  | .string literal => literal.map .text
  | .array items =>
      match nesting with
      | 0 => none
      | nesting + 1 => (itemsOfJson? nesting items).map .array
  | .object members =>
      match nesting with
      | 0 => none
      | nesting + 1 => (membersOfJson? nesting members).map (.object ∘ ofMembers)
termination_by structural x => x

def itemsOfJson? (nesting : Nat) : List Json → Option (List Content)
  | [] => some []
  | item :: items => do
      let item ← ofJson? nesting item
      let items ← itemsOfJson? nesting items
      some (item :: items)
termination_by structural x => x

def membersOfJson? (nesting : Nat) :
    List (Literal × Json) → Option (List (String × Content))
  | [] => some []
  | member :: members => do
      let member ← memberOfJson? nesting member
      let members ← membersOfJson? nesting members
      some (member :: members)
termination_by structural x => x

def memberOfJson? (nesting : Nat) : Literal × Json → Option (String × Content)
  | (name, value) => do
      let name ← name
      let value ← ofJson? nesting value
      some (name, value)
termination_by structural x => x

end

/-! ## Writing -/

/-- The numeral of a finite binary64 number: its shortest decimal. It has a
point when its first digit lies in the last four places after the point or
the first sixteen before it, and an exponent otherwise. -/
def floatNumeral (x : Float) : Numeral :=
  let decimal := Decimal.shortest x
  let digits := (toString decimal.digits).toList
  let point : Int := digits.length + decimal.exponent
  let negative := x.toBits.toNat >>> 63 = 1
  let zeros (count : Int) := List.replicate count.toNat '0'
  if 0 ≤ decimal.exponent ∧ point ≤ 16 then
    { negative, whole := digits ++ zeros decimal.exponent, fraction := ['0'],
      exponent := none }
  else if 0 < point ∧ point ≤ 16 then
    { negative, whole := digits.take point.toNat, fraction := digits.drop point.toNat,
      exponent := none }
  else if -5 < point ∧ point ≤ 0 then
    { negative, whole := ['0'], fraction := zeros (-point) ++ digits, exponent := none }
  else
    { negative, whole := digits.take 1, fraction := digits.drop 1,
      exponent := some (point - 1 < 0, (toString (point - 1).natAbs).toList) }

/-- A machine number, binary64 numbers written in a given way. -/
def quantityToJson (float : Float → Json) : Quantity → Json
  | .natural value => .int value.toNat
  | .negative value => .int value.toInt
  | .float value => float value

mutual

/-- The tree that spells the data, binary64 numbers written in a given way. -/
def toJson (float : Float → Json) : Content → Json
  | .null => .null
  | .bool value => .bool value
  | .number quantity => quantityToJson float quantity
  | .text content => Json.text content
  | .array items => .array (itemsToJson float items)
  | .object members => .object (membersToJson float members)
termination_by structural x => x

def itemsToJson (float : Float → Json) : List Content → List Json
  | [] => []
  | item :: items => toJson float item :: itemsToJson float items
termination_by structural x => x

def membersToJson (float : Float → Json) :
    List (String × Content) → List (Literal × Json)
  | [] => []
  | member :: members => memberToJson float member :: membersToJson float members
termination_by structural x => x

def memberToJson (float : Float → Json) : String × Content → Literal × Json
  | (name, value) => (some name, toJson float value)
termination_by structural x => x

end

end Content

end Joinery.Json
