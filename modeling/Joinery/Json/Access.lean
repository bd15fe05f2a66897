import Joinery.Json.Basic

/-!
Contract: picking values out of JSON trees.

Each accessor gives `none` for a tree of another shape. Members are looked
up leniently: a member that is null counts as absent, of repeated members
the first counts, and an absent list is empty.
-/

namespace Joinery.Json

/-- The member of a given name, unless it is absent or null. -/
def member? (name : String) : Json → Option Json
  | .object members =>
      match membersNamed name members with
      | .null :: _ => none
      | value :: _ => some value
      | [] => none
  | _ => none

def string? : Json → Option String
  | .string literal => literal
  | _ => none

def bool? : Json → Option Bool
  | .bool value => some value
  | _ => none

/-- A number written as a plain integer. -/
def int? : Json → Option Int
  | .number numeral =>
      if numeral.IsInteger then
        let size : Int := Text.ofDigits numeral.whole
        some (if numeral.negative then -size else size)
      else none
  | _ => none

/-- The items of an array; null counts as an empty one. -/
def items? : Json → Option (List Json)
  | .array items => some items
  | .null => some []
  | _ => none

/-- A member that is a text. -/
def text? (name : String) (json : Json) : Option String :=
  (member? name json).bind string?

/-- A member that is a truth value, false when absent. -/
def flag (name : String) (json : Json) : Bool :=
  ((member? name json).bind bool?).getD false

/-- A member that is a list of elements of one shape. -/
def list? {α : Type} (element? : Json → Option α) (name : String) (json : Json) :
    Option (List α) :=
  match member? name json with
  | some (.array items) => items.mapM element?
  | none => some []
  | _ => none

/-- A member of one shape that may be absent. -/
def optional? {α : Type} (read : Json → Option α) (name : String) (json : Json) :
    Option (Option α) :=
  match member? name json with
  | some value => (read value).map some
  | none => some none

end Joinery.Json
