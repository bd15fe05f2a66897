import Joinery.Sql.Relation
import Joinery.Value

/-!
Contract: SQL expressions.

Bound values are leaves of an expression and raw fragments are kept
verbatim. `Expr.same` is equality of expressions with bound values compared
as values, so an expression that binds a NaN differs from itself.
-/

namespace Joinery.Sql

/-- A column, possibly qualified by a relation. -/
structure Ident where
  qualifier : Option String
  name : String
deriving DecidableEq, Repr

inductive BinaryOperator where
  | eq
  | notEq
  | lt
  | ltEq
  | gt
  | gtEq
  | like
  | and
  | or
deriving DecidableEq, Repr

/-- The operator between its operands. -/
def BinaryOperator.text : BinaryOperator → String
  | .eq => " = "
  | .notEq => " <> "
  | .lt => " < "
  | .ltEq => " <= "
  | .gt => " > "
  | .gtEq => " >= "
  | .like => " LIKE "
  | .and => " AND "
  | .or => " OR "

/-- The name of the operator in data. -/
def BinaryOperator.name : BinaryOperator → String
  | .eq => "Eq"
  | .notEq => "NotEq"
  | .lt => "Lt"
  | .ltEq => "LtEq"
  | .gt => "Gt"
  | .gtEq => "GtEq"
  | .like => "Like"
  | .and => "And"
  | .or => "Or"

/-- The operator of a given name. -/
def BinaryOperator.ofName? : String → Option BinaryOperator
  | "Eq" => some .eq
  | "NotEq" => some .notEq
  | "Lt" => some .lt
  | "LtEq" => some .ltEq
  | "Gt" => some .gt
  | "GtEq" => some .gtEq
  | "Like" => some .like
  | "And" => some .and
  | "Or" => some .or
  | _ => none

inductive Expr where
  | identifier (ident : Ident)
  /-- All columns, of one relation if qualified. -/
  | wildcard (qualifier : Option String)
  /-- A bound parameter. -/
  | value (value : Value)
  /-- A raw fragment. -/
  | literal (sql : String)
  | binary (op : BinaryOperator) (left right : Expr)
  | isNull (operand : Expr) (negated : Bool)
  | inList (operand : Expr) (items : List Expr) (negated : Bool)
  /-- A function call; with `star` it has a star in place of its arguments. -/
  | call (name : String) (args : List Expr) (star : Bool)
  | aliased (operand : Expr) (aliasName : String)
deriving Repr

namespace Expr

/-- A column of a relation. -/
def qualified (qualifier name : String) : Expr :=
  .identifier ⟨some qualifier, name⟩

mutual

/-- Equality of expressions, with bound values compared as values. -/
def same : Expr → Expr → Bool
  | .identifier a, .identifier b => a == b
  | .wildcard a, .wildcard b => a == b
  | .value a, .value b => a == b
  | .literal a, .literal b => a == b
  | .binary op left right, .binary op' left' right' =>
      op == op' && same left left' && same right right'
  | .isNull operand negated, .isNull operand' negated' =>
      same operand operand' && negated == negated'
  | .inList operand items negated, .inList operand' items' negated' =>
      same operand operand' && sameList items items' && negated == negated'
  | .call name args star, .call name' args' star' =>
      name == name' && sameList args args' && star == star'
  | .aliased operand aliasName, .aliased operand' aliasName' =>
      same operand operand' && aliasName == aliasName'
  | _, _ => false
termination_by structural x => x

def sameList : List Expr → List Expr → Bool
  | [], [] => true
  | a :: as, b :: bs => same a b && sameList as bs
  | _, _ => false
termination_by structural x => x

end

instance : BEq Expr := ⟨same⟩

end Expr

end Joinery.Sql
