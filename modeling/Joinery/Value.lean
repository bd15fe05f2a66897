import Joinery.Calendar.Timestamp
import Joinery.Json.Content
import Joinery.Uuid

/-!
Contract: the scalar values that a query binds as parameters.

`Value.same` is the equality that a query sees. It follows the kinds:
binary64 numbers compare as numbers, so a NaN differs from itself and both
zeros are equal, and JSON compares as data.
-/

namespace Joinery

inductive Value where
  | int (value : Int64)
  | uint (value : UInt64)
  | float (value : Float)
  | string (value : String)
  | bool (value : Bool)
  | json (content : Json.Content)
  | uuid (value : Uuid)
  | date (value : Calendar.Date)
  | timestamp (value : Calendar.Timestamp)
  | null
deriving Repr

namespace Value

/-- Equality of values of one kind; values of different kinds differ. -/
def same : Value → Value → Bool
  | .int a, .int b => a == b
  | .uint a, .uint b => a == b
  | .float a, .float b => a == b
  | .string a, .string b => a == b
  | .bool a, .bool b => a == b
  | .json a, .json b => a == b
  | .uuid a, .uuid b => a == b
  | .date a, .date b => a == b
  | .timestamp a, .timestamp b => a == b
  | .null, .null => true
  | _, _ => false

instance : BEq Value := ⟨same⟩

end Value

/-- A type of scalars that can be bound as parameters. -/
class Scalar (α : Type) where
  toValue : α → Value

export Scalar (toValue)

instance : Scalar Int64 := ⟨.int⟩

instance : Scalar Int32 := ⟨fun value => .int value.toInt64⟩

instance : Scalar UInt64 := ⟨.uint⟩

instance : Scalar Float := ⟨.float⟩

instance : Scalar Bool := ⟨.bool⟩

instance : Scalar String := ⟨.string⟩

instance : Scalar Uuid := ⟨.uuid⟩

instance : Scalar Calendar.Date := ⟨.date⟩

instance : Scalar Calendar.Timestamp := ⟨.timestamp⟩

/-- An absent scalar is bound as null. -/
instance {α : Type} [Scalar α] : Scalar (Option α) :=
  ⟨fun value => (value.map toValue).getD .null⟩

end Joinery
