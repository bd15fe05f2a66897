import Joinery.Proofs.Plan.Conditions
import Joinery.Proofs.Statement.JoinOrder
import Joinery.Proofs.Text.Tokens
import Joinery.Proofs.Values.Text

/-!
Contract: the parameters of a built statement, in terms of what was asked.

A statement binds the literals of its projection, then those of the condition
that each entry was recorded with, in the order of the plan, then those of
its filter. Conditions come from contexts anywhere in the projection, in the
filter and in what was joined before, but each binds its literals once for
every entry recorded with it, however often its context is referred to.

Owns: the literals of terms, and the parameters of built statements.

Does not own: the positions of parameters in the text, and which traversal
of a key comes first.
-/

namespace Joinery

open Query (Table Term)
open Sql (Expr Relation Select)

/-! ## Literals -/

namespace Query.Term

mutual

/-- The values that a term is written with, from left to right, without those
in the arguments of star calls. -/
def literals : Term → List Value
  | .value bound => [bound]
  | .sql _ => []
  | .column _ => []
  | .relation _ => []
  | .binary _ left right => literals left ++ literals right
  | .isNull operand _ => literals operand
  | .inList operand items _ => literals operand ++ literalsList items
  | .call _ args star => if star then [] else literalsList args
  | .aliased operand _ => literals operand
termination_by structural x => x

def literalsList : List Term → List Value
  | [] => []
  | term :: others => literals term ++ literalsList others
termination_by structural x => x

end

theorem literalsList_eq_flatMap (terms : List Term) :
    literalsList terms = terms.flatMap literals := by
  induction terms with
  | nil => rfl
  | cons term others inductionHypothesis => simp [literalsList, inductionHypothesis]

mutual

/-- The expression of a term binds its literals, whatever the relations. -/
theorem values_fill : (term : Term) → (relations : List Relation) →
    (term.fill relations).values = term.literals
  | .value bound, _ => rfl
  | .sql fragment, _ => rfl
  | .column reference, _ => rfl
  | .relation context, _ => rfl
  | .binary op left right, relations => by
      simp [fill, literals, Expr.values, values_fill left, values_fill right]
  | .isNull operand negated, relations => by
      simp [fill, literals, Expr.values, values_fill operand]
  | .inList operand items negated, relations => by
      simp [fill, literals, Expr.values, values_fill operand, values_fillList items]
  | .call name args star, relations => by
      simp [fill, literals, Expr.values, values_fillList args]
  | .aliased operand aliasName, relations => by
      simp [fill, literals, Expr.values, values_fill operand]

theorem values_fillList : (terms : List Term) → (relations : List Relation) →
    Expr.valuesList (fillList terms relations) = literalsList terms
  | [], _ => rfl
  | term :: others, relations => by
      simp [fillList, literalsList, Expr.valuesList, values_fill term, values_fillList others]

end

theorem values_detached (term : Term) : term.detached.values = term.literals := by
  rw [detached_eq_fill, values_fill]

end Query.Term

/-! ## Values of lowered terms and of plans -/

namespace Planning

variable {plan after : Plan} {events : List Query.Event} {exprs : List Expr}

theorem eq_fillList_of_lowerList {terms : List Term}
    (lowered : lowerList terms plan = ⟨.ok exprs, after, events⟩) :
    ∃ relations, exprs = Term.fillList terms relations := by
  rw [lowerList_eq] at lowered
  obtain ⟨relations, _, _, _, -, given, -⟩ := bind_eq_ok lowered
  cases given
  exact ⟨relations, rfl⟩

theorem values_projection {projection : List Term}
    (lowered : lowerList projection plan = ⟨.ok exprs, after, events⟩) :
    exprs.flatMap Expr.values = projection.flatMap Term.literals := by
  obtain ⟨relations, rfl⟩ := eq_fillList_of_lowerList lowered
  rw [← Expr.valuesList_eq_flatMap, Term.values_fillList, Term.literalsList_eq_flatMap]

theorem values_filter {filter : Option Term}
    (lowered : lowerList filter.toList plan = ⟨.ok exprs, after, events⟩) :
    exprs.head?.toList.flatMap Expr.values = filter.toList.flatMap Term.literals := by
  obtain ⟨relations, rfl⟩ := eq_fillList_of_lowerList lowered
  cases filter with
  | none => rfl
  | some term => simp [Term.fillList, Term.values_fill]

end Planning

/-- All columns of the base bind nothing, so an empty projection makes no
difference. -/
theorem Plan.values_toSelect (plan : Plan) (columns : List Expr) (condition : Option Expr) :
    (plan.toSelect columns condition).values =
      columns.flatMap Expr.values ++ plan.entries.flatMap (·.on.values) ++
        condition.toList.flatMap Expr.values := by
  have ofColumns : (if columns.isEmpty then [.wildcard (some plan.base.qualifier)]
      else columns).flatMap Expr.values = columns.flatMap Expr.values := by
    cases columns <;> rfl
  rw [Plan.toSelect_eq, Select.values, ofColumns, List.flatMap_map]
  rfl

theorem Sql.Select.params_toSql (select : Select) (dialect : Sql.Dialect) :
    (select.toSql dialect).2 = select.values := by
  simp [Select.toSql, Select.render_eq, Sql.Renderer.addAll_eq, Select.values_tokens]

/-! ## Parameters of built statements -/

namespace Run

/-- The literals of the condition that an entry was recorded with, or none if
it was joined on the equality of keys. -/
def literals (run : Run) (entry : Plan.Entry) : List Value :=
  (run.condition? entry.key).toList.flatMap Term.literals

theorem values_on {root : Table Term} {operations : List Operation} {entry : Plan.Entry}
    (isEntry : entry ∈ (of root operations).plan.entries) :
    entry.on.values = (of root operations).literals entry := by
  unfold literals
  obtain ⟨condition, recorded, on⟩ | ⟨byKeys, hop, owner, -, on⟩ := on_eq isEntry
  · rw [on, recorded, Term.values_detached]
    simp
  · rw [on, byKeys]
    rfl

/-- How a statement binds what was asked of the run that it ends. Its joins
are the entries of the plan, one for every key that was traversed, and each is
on the condition recorded for that key or on the equality of keys. -/
structure Binds (run : Run) (projection : List Term) (filter : Option Term)
    (select : Select) : Prop where
  joins : select.joins = run.plan.entries.map Plan.Entry.toJoin
  once : run.plan.keys = run.traversals.eraseDups
  recorded : ∀ entry ∈ run.plan.entries,
    (∃ condition, run.condition? entry.key = some condition ∧ entry.on = condition.detached) ∨
    (run.condition? entry.key = none ∧
      ∃ hop owner, run.firstHop? entry.key = some hop ∧
        entry.on = hop.link.keyCondition owner entry.relation)
  params : ∀ dialect, (select.toSql dialect).2 =
    projection.flatMap Term.literals ++ run.plan.entries.flatMap run.literals ++
      filter.toList.flatMap Term.literals

/-- A statement that is built after any run is the end of a longer run, which
lowers the projection and the filter too. It binds the literals of the
projection, then for each entry of the final plan those of its recorded
condition, then the literals of the filter. -/
theorem params_of_select (root : Table Term) (operations : List Operation)
    (projection : List Term) (filter : Option Term) (select : Select)
    (built : (Planning.select projection filter (of root operations).plan).result = .ok select) :
    let final := of root (operations ++ (projection ++ filter.toList).map .lower)
    (Planning.select projection filter (of root operations).plan).plan = final.plan ∧
      final.Binds projection filter select := by
  obtain ⟨atEnd, columns, exprs, _, _, _, first, second, rfl⟩ := select_lowered built
  refine ⟨atEnd, ?_, (recorded root _).keys, fun entry isEntry => on_eq isEntry, ?_⟩
  · rw [Plan.toSelect_eq]
  · intro dialect
    rw [Select.params_toSql, Plan.values_toSelect, Planning.values_projection first,
      Planning.values_filter second]
    congr 2
    exact List.flatMap_congr fun entry isEntry => values_on isEntry

end Run

namespace Staff

/-- Whether the manager of an employee has a given name. The manager is
joined for employees who are called Ada. -/
def managerNamed (name : String) : Term :=
  .binary .eq (.column ⟨.chain (managerOf "Ada"), "name"⟩) (.ofScalar name)

/-- Both terms refer to the manager, who is joined once. -/
def managersNamed : Select :=
  { columns :=
      [.binary .eq (.qualified "manager_employees" "name") (.value (.string "Eve"))]
    base := some { table := { name := "employees" } }
    joins :=
      [⟨.inner, ⟨{ name := "employees" }, some "manager_employees"⟩,
        .binary .eq (.qualified "employees" "name") (.value (.string "Ada"))⟩]
    filter :=
      some (.binary .eq (.qualified "manager_employees" "name") (.value (.string "Fay"))) }

theorem params_managersNamed :
    (managersNamed.toSql .postgres).2 = [.string "Eve", .string "Ada", .string "Fay"] ∧
    (Planning.select [managerNamed "Eve"] (some (managerNamed "Fay"))
      (Run.of employees []).plan).result = .ok managersNamed ∧
    (Planning.select [managerNamed "Eve"] (some (managerNamed "Fay"))
      (Run.of employees []).plan).plan =
        (Run.of employees [.lower (managerNamed "Eve"), .lower (managerNamed "Fay")]).plan ∧
    (Run.of employees [.lower (managerNamed "Eve"), .lower (managerNamed "Fay")]).Binds
      [managerNamed "Eve"] (some (managerNamed "Fay")) managersNamed :=
  ⟨rfl, rfl, Run.params_of_select employees [] [managerNamed "Eve"] (some (managerNamed "Fay"))
    managersNamed rfl⟩

end Staff

end Joinery
