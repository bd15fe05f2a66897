import Joinery.Query.Context

/-!
Contract: terms, the expressions of a query before its joins are planned.

A term refers to columns by their contexts instead of by qualifiers.
`Term.detached` qualifies every column by its context's own alias or table
name; it is how join conditions are written, and it always succeeds.
`Term.same` is equality of terms: contexts are compared by the names of
their models, and bound values as values.
-/

namespace Joinery.Query

open Sql (BinaryOperator Expr)

inductive Term where
  /-- A bound parameter. -/
  | value (value : Value)
  /-- A raw fragment. -/
  | sql (fragment : String)
  | column (column : Column Term)
  /-- All columns of a context. -/
  | relation (context : Context Term)
  | binary (op : BinaryOperator) (left right : Term)
  | isNull (operand : Term) (negated : Bool)
  | inList (operand : Term) (items : List Term) (negated : Bool)
  | call (name : String) (args : List Term) (star : Bool)
  | aliased (operand : Term) (aliasName : String)

namespace Term

/-! ## Construction -/

/-- The parameter of a scalar. -/
def ofScalar {α : Type} [Scalar α] (scalar : α) : Term :=
  .value (toValue scalar)

/-- A member as a term: the column, or all columns of the chain's target. -/
def ofMember : Member Term → Term
  | .column found => .column found
  | .chain route => .relation (.chain route)

/-- The number of rows. -/
def countAll : Term :=
  .call "COUNT" [] true

/-- The conjunction of a term with further ones, from left to right. -/
def all (first : Term) (others : List Term) : Term :=
  others.foldl (.binary .and) first

/-- The disjunction of a term with further ones, from left to right. -/
def any (first : Term) (others : List Term) : Term :=
  others.foldl (.binary .or) first

/-! ## Detached expressions -/

mutual

/-- The expression with every context under its own qualifier. -/
def detached : Term → Expr
  | .value bound => .value bound
  | .sql fragment => .literal fragment
  | .column reference => .identifier reference.ident
  | .relation context => .wildcard (some context.relation.qualifier)
  | .binary op left right => .binary op (detached left) (detached right)
  | .isNull operand negated => .isNull (detached operand) negated
  | .inList operand items negated => .inList (detached operand) (detachedList items) negated
  | .call name args star => .call name (detachedList args) star
  | .aliased operand aliasName => .aliased (detached operand) aliasName
termination_by structural x => x

def detachedList : List Term → List Expr
  | [] => []
  | term :: others => detached term :: detachedList others
termination_by structural x => x

end

/-! ## Equality -/

mutual

/-- Equality of terms. -/
def same : Term → Term → Bool
  | .value a, .value b => a == b
  | .sql a, .sql b => a == b
  | .column a, .column b => sameColumn a b
  | .relation a, .relation b => sameContext a b
  | .binary op left right, .binary op' left' right' =>
      op == op' && same left left' && same right right'
  | .isNull operand negated, .isNull operand' negated' =>
      same operand operand' && negated == negated'
  | .inList operand items negated, .inList operand' items' negated' =>
      same operand operand' && sameList items items' && negated == negated'
  | .call name args star, .call name' args' star' =>
      name == name' && sameList args args' && star == star'
  | .aliased operand aliasName, .aliased operand' aliasName' =>
      same operand operand' && aliasName == aliasName'
  | _, _ => false
termination_by structural x => x

def sameList : List Term → List Term → Bool
  | [], [] => true
  | a :: as, b :: bs => same a b && sameList as bs
  | _, _ => false
termination_by structural x => x

/-- Equality of optional conditions. -/
def sameCondition : Option Term → Option Term → Bool
  | none, none => true
  | some a, some b => same a b
  | _, _ => false
termination_by structural x => x

def sameColumn : Column Term → Column Term → Bool
  | ⟨context, name⟩, ⟨context', name'⟩ => sameContext context context' && name == name'
termination_by structural x => x

def sameContext : Context Term → Context Term → Bool
  | .table a, .table b => sameTable a b
  | .chain a, .chain b => sameChain a b
  | _, _ => false
termination_by structural x => x

/-- Equality of tables: the same model name, relation, join kind and
condition. -/
def sameTable : Table Term → Table Term → Bool
  | ⟨scope, joined, join, condition⟩, ⟨scope', joined', join', condition'⟩ =>
      scope.model == scope'.model && joined == joined' && join == join' &&
        sameCondition condition condition'
termination_by structural x => x

/-- Equality of associations: the same name, kind, target model, keys and
condition. -/
def sameLink : Link Term → Link Term → Bool
  | ⟨name, kind, target, foreignKey, primaryKey, condition⟩,
    ⟨name', kind', target', foreignKey', primaryKey', condition'⟩ =>
      name == name' && kind == kind' && target.model == target'.model &&
        foreignKey == foreignKey' && primaryKey == primaryKey' &&
        sameCondition condition condition'
termination_by structural x => x

def sameHop : Hop Term → Hop Term → Bool
  | ⟨link, table⟩, ⟨link', table'⟩ => sameLink link link' && sameTable table table'
termination_by structural x => x

def sameHops : List (Hop Term) → List (Hop Term) → Bool
  | [], [] => true
  | a :: as, b :: bs => sameHop a b && sameHops as bs
  | _, _ => false
termination_by structural x => x

def sameChain : Chain Term → Chain Term → Bool
  | ⟨root, earlier, last⟩, ⟨root', earlier', last'⟩ =>
      sameTable root root' && sameHops earlier earlier' && sameHop last last'
termination_by structural x => x

end

instance : BEq Term := ⟨same⟩

instance : BEq (Link Term) := ⟨sameLink⟩

instance : BEq (Context Term) := ⟨sameContext⟩

end Term

end Joinery.Query
