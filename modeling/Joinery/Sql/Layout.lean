import Joinery.Json.Access
import Joinery.Sql.Select

/-!
Contract: expressions and statements as JSON.

Every constructor is an object with one member, named for it. All fields are
written; when they are read, absent lists are empty, absent names are none
and absent truth values are false. How bound values are written and read is
left to the caller, since JSON has no form for all of them.
-/

namespace Joinery.Sql

/-! ## Writing -/

/-- A text, or null for its absence. -/
def nameToJson : Option String → Json
  | some name => .text name
  | none => .null

def TableRef.toJson (table : TableRef) : Json :=
  .record [("schema", nameToJson table.schema), ("name", .text table.name)]

def Ident.toJson (ident : Ident) : Json :=
  .record [("qualifier", nameToJson ident.qualifier), ("name", .text ident.name)]

namespace Expr

mutual

/-- An expression, its values written in a given way. -/
def toJson (write : Value → Json) : Expr → Json
  | .identifier ident => .record [("Identifier", ident.toJson)]
  | .wildcard qualifier =>
      .record [("Wildcard", .record [("qualifier", nameToJson qualifier)])]
  | .value bound => .record [("Value", write bound)]
  | .literal sql => .record [("Literal", .text sql)]
  | .binary op left right =>
      .record
        [("BinaryOp", .record
          [ ("left", toJson write left), ("op", .text op.name),
            ("right", toJson write right) ])]
  | .isNull operand negated =>
      .record
        [("IsNull", .record [("expr", toJson write operand), ("negated", .bool negated)])]
  | .inList operand items negated =>
      .record
        [("InList", .record
          [ ("expr", toJson write operand), ("list", .array (listToJson write items)),
            ("negated", .bool negated) ])]
  | .call name args star =>
      .record
        [("FunctionCall", .record
          [ ("name", .text name), ("args", .array (listToJson write args)),
            ("wildcard", .bool star) ])]
  | .aliased operand aliasName =>
      .record
        [("Alias", .record [("expr", toJson write operand), ("alias", .text aliasName)])]
termination_by structural x => x

def listToJson (write : Value → Json) : List Expr → List Json
  | [] => []
  | expr :: others => toJson write expr :: listToJson write others
termination_by structural x => x

end

end Expr

def Join.toJson (write : Value → Json) (join : Join) : Json :=
  .record
    [ ("kind", .text join.kind.name),
      ("table", join.relation.table.toJson),
      ("alias", nameToJson join.relation.aliasName),
      ("on", join.on.toJson write) ]

def Relation.toJson (relation : Relation) : Json :=
  .record [("table", relation.table.toJson), ("alias", nameToJson relation.aliasName)]

/-- A statement, its values written in a given way. -/
def Select.toJson (write : Value → Json) (select : Select) : Json :=
  .record
    [ ("columns", .array (select.columns.map (Expr.toJson write))),
      ("from", (select.base.map Relation.toJson).getD .null),
      ("joins", .array (select.joins.map (Join.toJson write))),
      ("where_clause", (select.filter.map (Expr.toJson write)).getD .null) ]

/-! ## Reading -/

def TableRef.ofJson? (json : Json) : Option TableRef := do
  some { schema := json.text? "schema", name := ← json.text? "name" }

def Ident.ofJson? (json : Json) : Option Ident := do
  some { qualifier := json.text? "qualifier", name := ← json.text? "name" }

namespace Expr

/-- An expression whose operands nest less than `depth` levels deep, its
values read in a given way. -/
def ofJsonUpTo? (read : Json → Option Value) : Nat → Json → Option Expr
  | depth + 1, .object [(some kind, json)] => do
      let operand? (name : String) : Option Expr :=
        (json.member? name).bind (ofJsonUpTo? read depth)
      match kind with
      | "Identifier" => (Ident.ofJson? json).map .identifier
      | "Wildcard" => some (.wildcard (json.text? "qualifier"))
      | "Value" => (read json).map .value
      | "Literal" => json.string?.map .literal
      | "BinaryOp" =>
          some (.binary (← (json.text? "op").bind BinaryOperator.ofName?)
            (← operand? "left") (← operand? "right"))
      | "IsNull" => some (.isNull (← operand? "expr") (json.flag "negated"))
      | "InList" =>
          some (.inList (← operand? "expr") (← json.list? (ofJsonUpTo? read depth) "list")
            (json.flag "negated"))
      | "FunctionCall" =>
          some (.call (← json.text? "name") (← json.list? (ofJsonUpTo? read depth) "args")
            (json.flag "wildcard"))
      | "Alias" => some (.aliased (← operand? "expr") (← json.text? "alias"))
      | _ => none
  | _, _ => none

/-- An expression, its values read in a given way. An expression nests less
deep than its tree. -/
def ofJson? (read : Json → Option Value) (json : Json) : Option Expr :=
  ofJsonUpTo? read json.depth json

end Expr

def Relation.ofJson? (json : Json) : Option Relation := do
  some
    { table := ← (json.member? "table").bind TableRef.ofJson?
      aliasName := json.text? "alias" }

def Join.ofJson? (read : Json → Option Value) (json : Json) : Option Join := do
  some
    { kind := ← (json.text? "kind").bind JoinKind.ofName?
      relation := ← Relation.ofJson? json
      on := ← (json.member? "on").bind (Expr.ofJson? read) }

/-- A statement, its values read in a given way. -/
def Select.ofJson? (read : Json → Option Value) (json : Json) : Option Select := do
  some
    { columns := ← json.list? (Expr.ofJson? read) "columns"
      base := ← json.optional? Relation.ofJson? "from"
      joins := ← json.list? (Join.ofJson? read) "joins"
      filter := ← json.optional? (Expr.ofJson? read) "where_clause" }

end Joinery.Sql
