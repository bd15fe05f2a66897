import Joinery.Sql.Dialect
import Joinery.Sql.Select

/-!
Contract: the text of statements, with their values as parameters.

A renderer holds the text written so far and the values bound so far.
Rendering only ever appends to both: a value appends itself to the
parameters and its placeholder to the text. Every operator, test and list is
parenthesised, so no text relies on precedence.

Owns: the text and the order of parameters of expressions and statements.

Does not own: quoting and placeholders, which are the dialect's.
-/

namespace Joinery.Sql

structure Renderer where
  dialect : Dialect
  sql : String := ""
  params : List Value := []

namespace Renderer

/-- Appends text as it is. -/
def write (renderer : Renderer) (text : String) : Renderer :=
  { renderer with sql := renderer.sql ++ text }

/-- Appends a quoted name. -/
def writeName (renderer : Renderer) (name : String) : Renderer :=
  renderer.write (renderer.dialect.quote name)

/-- Appends a quoted qualifier and a point, if there is a qualifier. -/
def writeQualifier (renderer : Renderer) : Option String → Renderer
  | some qualifier => (renderer.writeName qualifier).write "."
  | none => renderer

/-- Binds a value and appends its placeholder. -/
def bind (renderer : Renderer) (value : Value) : Renderer :=
  { renderer with
    sql := renderer.sql ++ renderer.dialect.placeholder renderer.params.length
    params := renderer.params ++ [value] }

/-- Appends a table with its schema. -/
def writeTable (renderer : Renderer) (table : TableRef) : Renderer :=
  (renderer.writeQualifier table.schema).writeName table.name

/-- Appends a table with its schema and alias. -/
def writeRelation (renderer : Renderer) (relation : Relation) : Renderer :=
  let written := renderer.writeTable relation.table
  match relation.aliasName with
  | some aliasName => (written.write " AS ").writeName aliasName
  | none => written

end Renderer

namespace Expr

mutual

/-- Appends an expression. -/
def render : Expr → Renderer → Renderer
  | .identifier ident, r => (r.writeQualifier ident.qualifier).writeName ident.name
  | .wildcard qualifier, r => (r.writeQualifier qualifier).write "*"
  | .value bound, r => r.bind bound
  | .literal sql, r => r.write sql
  | .binary op left right, r =>
      (render right ((render left (r.write "(")).write op.text)).write ")"
  | .isNull operand negated, r =>
      (render operand (r.write "(")).write (if negated then " IS NOT NULL)" else " IS NULL)")
  | .inList operand items negated, r =>
      (renderList items
        ((render operand (r.write "(")).write (if negated then " NOT IN (" else " IN ("))).write
        "))"
  | .call name args star, r =>
      if star then (((r.write name).write "(").write "*").write ")"
      else (renderList args ((r.write name).write "(")).write ")"
  | .aliased operand aliasName, r => ((render operand r).write " AS ").writeName aliasName
termination_by structural x => x

/-- Appends expressions with commas between them. -/
def renderList : List Expr → Renderer → Renderer
  | [], r => r
  | expr :: others, r => renderFurther others (render expr r)
termination_by structural x => x

/-- Appends expressions, each after a comma. -/
def renderFurther : List Expr → Renderer → Renderer
  | [], r => r
  | expr :: others, r => renderFurther others (render expr (r.write ", "))
termination_by structural x => x

end

end Expr

/-- Appends a join clause. -/
def Join.render (join : Join) (r : Renderer) : Renderer :=
  join.on.render (((r.write join.kind.keyword).writeRelation join.relation).write " ON ")

/-- Appends a statement. -/
def Select.render (select : Select) (r : Renderer) : Renderer :=
  let projected := Expr.renderList select.columns (r.write "SELECT ")
  let based :=
    match select.base with
    | some base => (projected.write " FROM ").writeRelation base
    | none => projected
  let joined := select.joins.foldl (fun r join => join.render (r.write " ")) based
  match select.filter with
  | some filter => filter.render (joined.write " WHERE ")
  | none => joined

/-- The text of a statement and its parameters, in the order of their
placeholders. -/
def Select.toSql (select : Select) (dialect : Dialect) : String × List Value :=
  let r := select.render { dialect }
  (r.sql, r.params)

/-- The text of an expression and its parameters. -/
def Expr.toSql (expr : Expr) (dialect : Dialect) : String × List Value :=
  let r := expr.render { dialect }
  (r.sql, r.params)

end Joinery.Sql
