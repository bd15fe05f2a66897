import Joinery.Sql.Expr

/-!
Contract: SELECT statements and their construction clause by clause.

A statement is built in the order of its clauses: a projection first, then
the base relation, then any number of joins and a filter. `Projection` is
the state before the base relation is known, so joins and filters cannot be
added to it.
-/

namespace Joinery.Sql

/-- A joined relation and the condition it is joined on. -/
structure Join where
  kind : JoinKind
  relation : Relation
  on : Expr
deriving Repr

structure Select where
  columns : List Expr
  base : Option Relation
  joins : List Join
  filter : Option Expr
deriving Repr

/-- The columns of a statement whose base relation is not yet chosen. -/
structure Projection where
  columns : List Expr
deriving Repr

/-- Chooses the base relation. -/
def Projection.over (projection : Projection) (base : Relation) : Select :=
  { columns := projection.columns, base := some base, joins := [], filter := none }

namespace Select

/-- Adds a join after those already present. -/
def join (select : Select) (kind : JoinKind) (relation : Relation) (on : Expr) : Select :=
  { select with joins := select.joins ++ [⟨kind, relation, on⟩] }

/-- Sets the filter, in place of any earlier one. -/
def filterBy (select : Select) (condition : Expr) : Select :=
  { select with filter := some condition }

end Select

end Joinery.Sql
