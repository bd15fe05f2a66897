import Joinery.Proofs.Statement.Scope
import Joinery.Proofs.Values.Plans
import Joinery.Sql.Renderer

/-!
Contract: values are never written into the text of a statement.

Two runs are compared that perform the same operations on the same things,
up to the values of literals. Every operation succeeds or fails alike, and
the statements in the end have the same text in every dialect. A value
appends itself to the parameters and only its number to the text, so
parameters at the same position are values of the same literal.

Owns: alike statements, renderers and operations, and the text and the
parameters of two runs.

Does not own: the order of parameters within one statement.
-/

namespace Joinery

open Query (Chain Context Directory Error Table Term)
open Sql (Dialect Expr Join Relation Renderer Select)

variable {values : Value → Value → Prop}

/-! ## Rendering -/

namespace Sql

/-- The joins differ only in the values that their conditions bind. -/
structure Join.Alike (values : Value → Value → Prop) (join join' : Join) : Prop where
  kind : join'.kind = join.kind
  relation : join'.relation = join.relation
  on : Expr.Alike values join.on join'.on

/-- The statements differ only in the values that they bind. -/
structure Select.Alike (values : Value → Value → Prop) (select select' : Select) : Prop where
  columns : List.Forall₂ (Expr.Alike values) select.columns select'.columns
  base : select'.base = select.base
  joins : List.Forall₂ (Join.Alike values) select.joins select'.joins
  filter : Option.Rel (Expr.Alike values) select.filter select'.filter

/-- The same text so far, and parameters related one to one. -/
structure Renderer.Alike (values : Value → Value → Prop) (r r' : Renderer) : Prop where
  dialect : r'.dialect = r.dialect
  sql : r'.sql = r.sql
  params : List.Forall₂ values r.params r'.params

namespace Renderer.Alike

variable {r r' : Renderer} (renderers : r.Alike values r')
include renderers

theorem write (text : String) : (r.write text).Alike values (r'.write text) where
  dialect := renderers.dialect
  sql := congrArg (· ++ text) renderers.sql
  params := renderers.params

theorem writeName (name : String) : (r.writeName name).Alike values (r'.writeName name) := by
  rw [Renderer.writeName, Renderer.writeName, renderers.dialect]
  exact renderers.write _

theorem writeQualifier (qualifier : Option String) :
    (r.writeQualifier qualifier).Alike values (r'.writeQualifier qualifier) := by
  cases qualifier with
  | none => exact renderers
  | some qualifier => exact (renderers.writeName qualifier).write "."

/-- The placeholder is that of the number of parameters so far, which is the
same for both. -/
theorem bind {bound bound' : Value} (related : values bound bound') :
    (r.bind bound).Alike values (r'.bind bound') where
  dialect := renderers.dialect
  sql := by
    have sameNumber : r'.params.length = r.params.length := renderers.params.length_eq.symm
    show r'.sql ++ r'.dialect.placeholder r'.params.length =
      r.sql ++ r.dialect.placeholder r.params.length
    rw [renderers.sql, renderers.dialect, sameNumber]
  params := List.rel_append renderers.params (.cons related .nil)

theorem writeRelation (relation : Relation) :
    (r.writeRelation relation).Alike values (r'.writeRelation relation) := by
  have written : (r.writeTable relation.table).Alike values (r'.writeTable relation.table) :=
    (renderers.writeQualifier relation.table.schema).writeName relation.table.name
  unfold Renderer.writeRelation
  cases relation.aliasName with
  | none => exact written
  | some aliasName => exact (written.write " AS ").writeName aliasName

end Renderer.Alike

mutual

theorem Expr.Alike.render : {expr expr' : Expr} → Expr.Alike values expr expr' →
    {r r' : Renderer} → r.Alike values r' → (expr.render r).Alike values (expr'.render r')
  | _, _, .identifier ident, _, _, renderers =>
      (renderers.writeQualifier ident.qualifier).writeName ident.name
  | _, _, .wildcard qualifier, _, _, renderers => (renderers.writeQualifier qualifier).write "*"
  | _, _, .value related, _, _, renderers => renderers.bind related
  | _, _, .literal fragment, _, _, renderers => renderers.write fragment
  | _, _, .binary op lefts rights, _, _, renderers =>
      (rights.render ((lefts.render (renderers.write "(")).write op.text)).write ")"
  | _, _, .isNull _ operands, _, _, renderers =>
      (operands.render (renderers.write "(")).write _
  | _, _, .inList _ operands lists, _, _, renderers =>
      (Expr.alike_renderList lists ((operands.render (renderers.write "(")).write _)).write "))"
  | _, _, .call name true _, _, _, renderers =>
      (((renderers.write name).write "(").write "*").write ")"
  | _, _, .call name false lists, _, _, renderers =>
      (Expr.alike_renderList lists ((renderers.write name).write "(")).write ")"
  | _, _, .aliased aliasName operands, _, _, renderers =>
      ((operands.render renderers).write " AS ").writeName aliasName

theorem Expr.alike_renderList : {exprs exprs' : List Expr} →
    List.Forall₂ (Expr.Alike values) exprs exprs' → {r r' : Renderer} → r.Alike values r' →
    (Expr.renderList exprs r).Alike values (Expr.renderList exprs' r')
  | _, _, .nil, _, _, renderers => renderers
  | _, _, .cons first others, _, _, renderers =>
      Expr.alike_renderFurther others (first.render renderers)

theorem Expr.alike_renderFurther : {exprs exprs' : List Expr} →
    List.Forall₂ (Expr.Alike values) exprs exprs' → {r r' : Renderer} → r.Alike values r' →
    (Expr.renderFurther exprs r).Alike values (Expr.renderFurther exprs' r')
  | _, _, .nil, _, _, renderers => renderers
  | _, _, .cons first others, _, _, renderers =>
      Expr.alike_renderFurther others (first.render (renderers.write ", "))

end

theorem Join.Alike.render {join join' : Join} (joins : join.Alike values join') {r r' : Renderer}
    (renderers : r.Alike values r') : (join.render r).Alike values (join'.render r') := by
  unfold Join.render
  rw [joins.kind, joins.relation]
  exact joins.on.render (((renderers.write _).writeRelation _).write " ON ")

theorem Select.Alike.render {select select' : Select} (selects : select.Alike values select')
    {r r' : Renderer} (renderers : r.Alike values r') :
    (select.render r).Alike values (select'.render r') := by
  have projected := Expr.alike_renderList selects.columns (renderers.write "SELECT ")
  have joined {based based' : Renderer} (bases : based.Alike values based') :
      (select.joins.foldl (fun r join => join.render (r.write " ")) based).Alike values
        (select'.joins.foldl (fun r join => join.render (r.write " ")) based') :=
    List.rel_foldl (fun _ _ renderers _ _ joins => joins.render (renderers.write " ")) bases
      selects.joins
  have filters := selects.filter
  unfold Select.render
  rw [selects.base]
  generalize select.filter = filter at filters ⊢
  generalize select'.filter = filter' at filters ⊢
  cases select.base with
  | none =>
      cases filters with
      | none => exact joined projected
      | some conditions => exact conditions.render ((joined projected).write " WHERE ")
  | some base =>
      have based := (projected.write " FROM ").writeRelation base
      cases filters with
      | none => exact joined based
      | some conditions => exact conditions.render ((joined based).write " WHERE ")

/-- Alike statements have the same text, and parameters related one to one. -/
theorem Select.Alike.toSql {select select' : Select} (selects : select.Alike values select')
    (dialect : Dialect) :
    (select'.toSql dialect).1 = (select.toSql dialect).1 ∧
      List.Forall₂ values (select.toSql dialect).2 (select'.toSql dialect).2 := by
  have starts : Renderer.Alike values { dialect } { dialect } := ⟨rfl, rfl, .nil⟩
  have rendered := selects.render starts
  exact ⟨rendered.sql, rendered.params⟩

end Sql

/-! ## Statements of alike plans -/

theorem Plan.Entry.Alike.toJoin {entry entry' : Plan.Entry} (entries : entry.Alike values entry') :
    entry.toJoin.Alike values entry'.toJoin :=
  ⟨entries.kind, entries.relation, entries.on⟩

theorem Plan.Alike.toSelect {plan plan' : Plan} (plans : plan.Alike values plan')
    {projection projection' : List Expr}
    (projections : List.Forall₂ (Expr.Alike values) projection projection')
    {filter filter' : Option Expr} (filters : Option.Rel (Expr.Alike values) filter filter') :
    (plan.toSelect projection filter).Alike values (plan'.toSelect projection' filter') := by
  rw [Plan.toSelect_eq, Plan.toSelect_eq, plans.base]
  refine ⟨?_, rfl, ?_, filters⟩
  · -- An empty projection stands for all columns of the base.
    cases projections with
    | nil => exact .cons (.wildcard _) .nil
    | cons first others => exact .cons first others
  · rw [List.forall₂_map_left_iff, List.forall₂_map_right_iff]
    exact plans.entries.imp fun _ _ entries => entries.toJoin

namespace Planning

theorem alike_lowerFilter {filter filter' : Option Term}
    (filters : Option.Rel (Term.Alike values) filter filter') :
    Alike values (Option.Rel (Expr.Alike values)) (lowerFilter filter) (lowerFilter filter') := by
  cases filters with
  | none => exact .give .none
  | some terms => exact (alike_lower terms).bind fun expr => .give (.some expr)

theorem alike_select {projection projection' : List Term}
    (projections : List.Forall₂ (Term.Alike values) projection projection')
    {filter filter' : Option Term} (filters : Option.Rel (Term.Alike values) filter filter') :
    Alike values (Select.Alike values) (select projection filter)
      (select projection' filter') := by
  apply (alike_lowerList projections).bind
  intro columns columns' lowered
  apply (alike_lowerFilter filters).bind
  intro condition condition' conditions plan plan' plans
  exact ⟨.ok (plans.toSelect lowered conditions), plans⟩

end Planning

/-! ## Two runs -/

/-- The operations are the same and join or lower alike things. -/
inductive Operation.Alike (values : Value → Value → Prop) : Operation → Operation → Prop where
  | joinPath {directory directory' : Directory}
      (directories : directory.Alike values directory') (names : List String) :
      Alike values (.joinPath directory names) (.joinPath directory' names)
  | joinChain {chain chain' : Chain Term}
      (chains : Chain.Alike (Term.Alike values) chain chain') :
      Alike values (.joinChain chain) (.joinChain chain')
  | joinTable {table table' : Table Term}
      (tables : Table.Alike (Term.Alike values) table table') :
      Alike values (.joinTable table) (.joinTable table')
  | joinContext {context context' : Context Term}
      (contexts : Context.Alike (Term.Alike values) context context') :
      Alike values (.joinContext context) (.joinContext context')
  | lower {term term' : Term} (terms : Term.Alike values term term') :
      Alike values (.lower term) (.lower term')

theorem Operation.Alike.perform {operation operation' : Operation}
    (operations : operation.Alike values operation') :
    Planning.Alike values Eq operation.perform operation'.perform := by
  cases operations with
  | joinPath directories names =>
      exact (Planning.alike_joinPath directories names).bind fun _ => .give rfl
  | joinChain chains => exact (Planning.alike_joinChain chains).bind fun _ => .give rfl
  | joinTable tables => exact (Planning.alike_joinTable tables).bind fun _ => .give rfl
  | joinContext contexts => exact (Planning.alike_joinContext contexts).bind fun _ => .give rfl
  | lower terms => exact (Planning.alike_lower terms).bind fun _ => .give rfl

namespace Run

/-- Whether each of the operations that a run goes on with succeeds, and with
which error it fails. -/
def answers (run : Run) : List Operation → List (Except Error Unit)
  | [] => []
  | operation :: others =>
      (operation.perform run.plan).result :: answers (run.next operation) others

variable {run run' : Run} {operations operations' : List Operation}

theorem alike_next (plans : run.plan.Alike values run'.plan) {operation operation' : Operation}
    (operations : operation.Alike values operation') :
    (run.next operation).plan.Alike values (run'.next operation').plan :=
  (operations.perform plans).plan

theorem alike_foldl (plans : run.plan.Alike values run'.plan)
    (pairs : List.Forall₂ (Operation.Alike values) operations operations') :
    (operations.foldl next run).plan.Alike values (operations'.foldl next run').plan := by
  induction pairs generalizing run run' with
  | nil => exact plans
  | cons head _ inductionHypothesis => exact inductionHypothesis (alike_next plans head)

theorem answers_eq_of_alike (plans : run.plan.Alike values run'.plan)
    (pairs : List.Forall₂ (Operation.Alike values) operations operations') :
    run'.answers operations' = run.answers operations := by
  induction pairs generalizing run run' with
  | nil => rfl
  | cons head _ inductionHypothesis =>
      have sameAnswer := (head.perform plans).result.eq
      rw [answers, answers, sameAnswer, inductionHypothesis (alike_next plans head)]

/-- If two runs perform the same operations up to the values of literals and
then build a statement, every step succeeds or fails alike, the plans are the
same up to these values, and the statements have the same text in every
dialect. `values` can be any relation that holds of the two values of each
literal, and then holds of the two parameters at each position. In the
narrowest case it is the list of these pairs, one for each literal, so the
parameters at a position are the values of one literal in the two runs. -/
theorem sameText_of_alike {root root' : Table Term} {projection projection' : List Term}
    {filter filter' : Option Term} (roots : Table.Alike (Term.Alike values) root root')
    (performed : List.Forall₂ (Operation.Alike values) operations operations')
    (projections : List.Forall₂ (Term.Alike values) projection projection')
    (filters : Option.Rel (Term.Alike values) filter filter') :
    answers (.start root') operations' = answers (.start root) operations ∧
    (of root operations).plan.Alike values (of root' operations').plan ∧
    Outcome.Alike values
      (fun select select' => ∀ dialect,
        (select'.toSql dialect).1 = (select.toSql dialect).1 ∧
          List.Forall₂ values (select.toSql dialect).2 (select'.toSql dialect).2)
      (Planning.select projection filter (of root operations).plan)
      (Planning.select projection' filter' (of root' operations').plan) := by
  have starts : (start root).plan.Alike values (start root').plan := ⟨roots, .nil, rfl⟩
  have plans := alike_foldl starts performed
  obtain ⟨results, after⟩ := Planning.alike_select projections filters plans
  exact ⟨answers_eq_of_alike starts performed, plans,
    results.imp fun selects dialect => selects.toSql dialect, after⟩

end Run

namespace Staff

/-- Whether an employee has a given name. -/
def named (name : String) : Term :=
  .binary .eq (.column ⟨.table employees, "name"⟩) (.ofScalar name)

/-- The chain to a manager, joined on the employee having a given name. -/
def managerOf (name : String) : Chain Term :=
  manager.mapTarget (·.on (named name))

/-- The two values of each of two literals. -/
def Renamed (bound bound' : Value) : Prop :=
  (bound, bound') ∈ [(toValue "Ada", toValue "Bob"), (toValue "Eve", toValue "Fay")]

theorem alike_named {name name' : String} (renamed : Renamed (toValue name) (toValue name')) :
    Term.Alike Renamed (named name) (named name') :=
  .binary .eq (.column "name" (.table (.mk _ _ _ .none))) (.value renamed)

theorem alike_managerOf {name name' : String}
    (renamed : Renamed (toValue name) (toValue name')) :
    Chain.Alike (Term.Alike Renamed) (managerOf name) (managerOf name') :=
  .mk (.mk _ _ _ .none) .nil (.mk (.mk _ _ _ _ _ .none) (.mk _ _ _ (.some (alike_named renamed))))

/-- The literal of the join comes before that of the filter in both runs. -/
theorem sameText_managerOf :
    ((Planning.select [] (some (named "Eve"))
        (Run.of employees [.joinChain (managerOf "Ada")]).plan).result.map
      fun select => (select.toSql .postgres).2) = .ok [.string "Ada", .string "Eve"] ∧
    Run.answers (.start employees) [.joinChain (managerOf "Bob")] =
      Run.answers (.start employees) [.joinChain (managerOf "Ada")] ∧
    (Run.of employees [.joinChain (managerOf "Ada")]).plan.Alike Renamed
      (Run.of employees [.joinChain (managerOf "Bob")]).plan ∧
    Outcome.Alike Renamed
      (fun select select' => ∀ dialect,
        (select'.toSql dialect).1 = (select.toSql dialect).1 ∧
          List.Forall₂ Renamed (select.toSql dialect).2 (select'.toSql dialect).2)
      (Planning.select [] (some (named "Eve"))
        (Run.of employees [.joinChain (managerOf "Ada")]).plan)
      (Planning.select [] (some (named "Fay"))
        (Run.of employees [.joinChain (managerOf "Bob")]).plan) :=
  ⟨rfl, Run.sameText_of_alike (Query.Table.alike_ofScope _)
    (.cons (.joinChain (alike_managerOf (.head _))) .nil) .nil
    (.some (alike_named (.tail _ (.head _))))⟩

end Staff

end Joinery
