import Joinery.Json.Token

/-!
Contract: JSON trees from tokens.

Reading is a pushdown automaton. Its state says what may follow and holds
the arrays and objects that are still open, innermost first, so a text is
read in one pass over its tokens whatever the depth of its nesting. Readers
that bound the nesting do so on the tree.
-/

namespace Joinery.Json

/-- An array or object that is still open, with what has been read of it,
last first. An object is waiting for the value of the named member. -/
inductive Frame where
  | array (items : List Json)
  | member (members : List (Literal × Json)) (name : Literal)

/-- What may follow, inside the open frames. -/
inductive State where
  /-- A value. -/
  | value (outer : List Frame)
  /-- The first item of an array, or its end. -/
  | firstItem (outer : List Frame)
  /-- The first member name of an object, or its end. -/
  | firstName (outer : List Frame)
  /-- A further member name. -/
  | name (members : List (Literal × Json)) (outer : List Frame)
  /-- The colon between a member's name and its value. -/
  | colon (members : List (Literal × Json)) (name : Literal) (outer : List Frame)
  /-- A value is complete: what the innermost frame allows, or the end. -/
  | complete (value : Json) (outer : List Frame)

namespace State

/-- The state after a token with which a value begins. -/
def begin? (outer : List Frame) : Token → Option State
  | .null => some (.complete .null outer)
  | .bool truth => some (.complete (.bool truth) outer)
  | .number numeral => some (.complete (.number numeral) outer)
  | .string literal => some (.complete (.string literal) outer)
  | .beginArray => some (.firstItem outer)
  | .beginObject => some (.firstName outer)
  | _ => none

/-- The state after one token; `none` when the token may not follow. -/
def step? : State → Token → Option State
  | .value outer, token => begin? outer token
  | .firstItem outer, .endArray => some (.complete (.array []) outer)
  | .firstItem outer, token => begin? (.array [] :: outer) token
  | .firstName outer, .endObject => some (.complete (.object []) outer)
  | .firstName outer, .string label => some (.colon [] label outer)
  | .name members outer, .string label => some (.colon members label outer)
  | .colon members label outer, .colon => some (.value (.member members label :: outer))
  | .complete tree (.array items :: outer), .comma =>
      some (.value (.array (tree :: items) :: outer))
  | .complete tree (.array items :: outer), .endArray =>
      some (.complete (.array (tree :: items).reverse) outer)
  | .complete tree (.member members label :: outer), .comma =>
      some (.name ((label, tree) :: members) outer)
  | .complete tree (.member members label :: outer), .endObject =>
      some (.complete (.object ((label, tree) :: members).reverse) outer)
  | _, _ => none

/-- The value that has been read, when nothing is left open. -/
def result? : State → Option Json
  | .complete tree [] => some tree
  | _ => none

end State

/-- The tree that a sequence of tokens spells. -/
def ofTokens? (tokens : List Token) : Option Json :=
  (tokens.foldlM State.step? (State.value [])).bind State.result?

/-- The tree that a text spells; `none` for a text that is not JSON. -/
def parse? (source : String) : Option Json :=
  (Token.scan source.toList).bind ofTokens?

end Joinery.Json
