import Joinery.Json.Parser
import Joinery.Value

/-!
Contract: values written as JSON.

A value is an object with one member, named for its kind. Null is written
as the text `Null`, or as an object whose member is null. Integers must be
written without point and exponent and lie in the range of their kind; a
binary64 number may be written as an integer, and one that is not finite is
written as null, which cannot be read. A text nests at most `nestingLimit`
levels deep, the object of the value included.
-/

namespace Joinery.Value

/-- How deep arrays and objects may nest in the text of a value. -/
def nestingLimit : Nat := 127

/-- A number in the range of a 64-bit integer. -/
def int? : Json.Quantity → Option Int64
  | .natural value => if value.toNat < Json.Quantity.signedBound then some value.toInt64 else none
  | .negative value => some value
  | .float _ => none

/-- A number in the range of a 64-bit integer without sign. -/
def uint? : Json.Quantity → Option UInt64
  | .natural value => some value
  | _ => none

/-- The value of a kind with a given content. -/
def ofMember? (kind : String) (content : Json) : Option Value :=
  match kind, content with
  | "Int", .number numeral => (numeral.quantity?.bind int?).map .int
  | "Uint", .number numeral => (numeral.quantity?.bind uint?).map .uint
  | "Float", .number numeral => numeral.quantity?.map fun quantity => .float quantity.toFloat
  | "String", .string literal => literal.map .string
  | "Boolean", .bool value => some (.bool value)
  | "Json", tree => (Json.Content.ofJson? (nestingLimit - 1) tree).map .json
  | "Uuid", .string literal => (literal.bind Uuid.ofString?).map .uuid
  | "Date", .string literal => (literal.bind Calendar.Date.ofString?).map .date
  | "Timestamp", .string literal => (literal.bind Calendar.Timestamp.ofString?).map .timestamp
  | "Null", .null => some .null
  | _, _ => none

/-- The value that a tree spells. -/
def ofJson? : Json → Option Value
  | .string (some "Null") => some .null
  | .object [(some kind, content)] => ofMember? kind content
  | _ => none

/-- The value that a text spells. -/
def parse? (source : String) : Option Value :=
  (Json.parse? source).bind ofJson?

/-- A binary64 number: its shortest decimal, or null if it is not finite. -/
def floatToJson (x : Float) : Json :=
  if x.isFinite then .number (Json.Content.floatNumeral x) else .null

/-- The tree that spells a value, binary64 numbers written in a given way. -/
def toJsonWith (float : Float → Json) : Value → Json
  | .int value => .record [("Int", .int value.toInt)]
  | .uint value => .record [("Uint", .int value.toNat)]
  | .float value => .record [("Float", float value)]
  | .string value => .record [("String", .text value)]
  | .bool value => .record [("Boolean", .bool value)]
  | .json content => .record [("Json", content.toJson float)]
  | .uuid value => .record [("Uuid", .text value.toText)]
  | .date value => .record [("Date", .text value.toText)]
  | .timestamp value => .record [("Timestamp", .text value.toText)]
  | .null => .text "Null"

/-- The tree that spells a value, binary64 numbers as decimals. -/
def toJson : Value → Json :=
  toJsonWith floatToJson

end Joinery.Value
