/-!
Contract: relations of a statement and how they are joined.

A relation is a table under an optional alias. Other clauses refer to it by
its qualifier: the alias, or else the table's own name.
-/

namespace Joinery.Sql

/-- A table, possibly in a named schema. -/
structure TableRef where
  schema : Option String := none
  name : String
deriving DecidableEq, Repr

/-- A table as it takes part in a statement. -/
structure Relation where
  table : TableRef
  aliasName : Option String := none
deriving DecidableEq, Repr

/-- The name by which columns of the relation are qualified. -/
def Relation.qualifier (relation : Relation) : String :=
  relation.aliasName.getD relation.table.name

inductive JoinKind where
  | inner
  | left
  | right
  | full
deriving DecidableEq, Repr

/-- The words that begin a join of this kind. -/
def JoinKind.keyword : JoinKind → String
  | .inner => "INNER JOIN "
  | .left => "LEFT OUTER JOIN "
  | .right => "RIGHT OUTER JOIN "
  | .full => "FULL OUTER JOIN "

/-- The name of the kind in logs and data. -/
def JoinKind.name : JoinKind → String
  | .inner => "Inner"
  | .left => "Left"
  | .right => "Right"
  | .full => "Full"

/-- The kind of a given name. -/
def JoinKind.ofName? : String → Option JoinKind
  | "Inner" => some .inner
  | "Left" => some .left
  | "Right" => some .right
  | "Full" => some .full
  | _ => none

end Joinery.Sql
