import Joinery.Plan.Joins
import Joinery.Sql.Select

/-!
Contract: expressions and statements from terms.

Lowering a term joins the contexts that it refers to into the plan, from
left to right, and qualifies each reference by the relation that joining
gave. The statement of a plan selects from its base relation and joins its
entries in order.

Owns: planned expressions, and the statement of a plan.

Does not own: detached expressions, which need no plan, and the text of
statements.
-/

namespace Joinery

open Query (Context Directory Term)
open Sql (Expr Projection Select)

namespace Planning

mutual

/-- Lowers a term to an expression. -/
def lower : Term → Planning Expr
  | .value bound => give (.value bound)
  | .sql fragment => give (.literal fragment)
  | .column column => do
      let relation ← joinContext column.context
      give (.qualified relation.qualifier column.name)
  | .relation context => do
      let relation ← joinContext context
      give (.wildcard (some relation.qualifier))
  | .binary op left right => do
      let left ← lower left
      let right ← lower right
      give (.binary op left right)
  | .isNull operand negated => do
      let operand ← lower operand
      give (.isNull operand negated)
  | .inList operand items negated => do
      let operand ← lower operand
      let items ← lowerList items
      give (.inList operand items negated)
  | .call name args star => do
      let args ← lowerList args
      give (.call name args star)
  | .aliased operand aliasName => do
      let operand ← lower operand
      give (.aliased operand aliasName)
termination_by structural x => x

/-- Lowers terms in order. -/
def lowerList : List Term → Planning (List Expr)
  | [] => give []
  | term :: others => do
      let expr ← lower term
      let exprs ← lowerList others
      give (expr :: exprs)
termination_by structural x => x

end

end Planning

/-- The statement of a plan. Without a projection it selects all columns of
the base relation. -/
def Plan.toSelect (plan : Plan) (projection : List Expr) (filter : Option Expr) : Select :=
  let columns :=
    if projection.isEmpty then [.wildcard (some plan.base.qualifier)] else projection
  let joined :=
    plan.entries.foldl (fun select entry => select.join entry.kind entry.relation entry.on)
      ((Projection.mk columns).over plan.base)
  match filter with
  | some condition => joined.filterBy condition
  | none => joined

namespace Planning

/-- Lowers a filter, if there is one. -/
def lowerFilter : Option Term → Planning (Option Expr)
  | none => give none
  | some term => do
      let expr ← lower term
      give (some expr)

/-- Lowers a projection and a filter, and gives the statement of the plan
that holds all they refer to. -/
def select (projection : List Term) (filter : Option Term) : Planning Select := do
  let columns ← lowerList projection
  let filter ← lowerFilter filter
  fun plan => give (plan.toSelect columns filter) plan

end Planning

/-- A plan for a root with the chain of the given names joined to it. -/
def Plan.ofPath (directory : Directory) (root : Query.Table Term) (names : List String) :
    Outcome Unit :=
  (do let _ ← Planning.joinPath directory names; Planning.give ()) (Plan.ofRoot root)

end Joinery
