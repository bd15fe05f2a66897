import Joinery.Proofs.Plan.Run

/-!
Contract: statements of plans are well scoped.

A statement that is built on a plan selects from the base of the plan and
joins its entries, in order. The columns and the filter are lowered while
entries are still being added, but a qualifier once given stays one of the
plan, so every column and every wildcard in them, at any depth, is qualified
by a relation of the statement. Raw fragments are not looked into.

Owns: the references of expressions, and the scope of built statements.

Does not own: the conditions of joins, and the text of statements.
-/

namespace Joinery

open Query (Table Term)
open Sql (Expr Join Projection Relation Select)

/-! ## References -/

namespace Sql

namespace Expr

mutual

/-- The qualifiers of all columns and wildcards in an expression, at any
depth, from left to right. Without a qualifier it is `none`. -/
def references : Expr → List (Option String)
  | .identifier ident => [ident.qualifier]
  | .wildcard qualifier => [qualifier]
  | .value _ => []
  | .literal _ => []
  | .binary _ left right => references left ++ references right
  | .isNull operand _ => references operand
  | .inList operand items _ => references operand ++ referencesList items
  | .call _ args _ => referencesList args
  | .aliased operand _ => references operand
termination_by structural x => x

def referencesList : List Expr → List (Option String)
  | [] => []
  | expr :: others => references expr ++ referencesList others
termination_by structural x => x

end

theorem referencesList_eq_flatMap (exprs : List Expr) :
    referencesList exprs = exprs.flatMap references := by
  induction exprs with
  | nil => rfl
  | cons expr others inductionHypothesis => simp [referencesList, inductionHypothesis]

end Expr

/-- The relations of a statement: the base, and the joined ones in order. -/
def Select.relations (select : Select) : List Relation :=
  select.base.toList ++ select.joins.map (·.relation)

/-- The expressions that a statement reads from its relations. -/
def Select.expressions (select : Select) : List Expr :=
  select.columns ++ select.filter.toList

end Sql

open Sql.Expr (referencesList referencesList_eq_flatMap)
open Query.Term (fillList contextsList)

/-- The reference that a relation given for a context is filled in as. -/
def Sql.Relation.reference (relation : Relation) : Option String :=
  some relation.qualifier

mutual

/-- A filled term refers to exactly the relations that were given for its
contexts. -/
theorem Query.Term.references_fill : (term : Term) → {relations : List Relation} →
    relations.length = term.contexts.length →
    (term.fill relations).references = relations.map Relation.reference
  | .value _, _, sameLength => by
      obtain rfl := List.length_eq_zero_iff.1 sameLength
      rfl
  | .sql _, _, sameLength => by
      obtain rfl := List.length_eq_zero_iff.1 sameLength
      rfl
  | .column _, _, sameLength => by
      obtain ⟨relation, rfl⟩ := List.length_eq_one_iff.1 sameLength
      rfl
  | .relation _, _, sameLength => by
      obtain ⟨relation, rfl⟩ := List.length_eq_one_iff.1 sameLength
      rfl
  | .binary _ left right, relations, sameLength => by
      have bound : relations.length = left.contexts.length + right.contexts.length := by
        simpa [contexts] using sameLength
      rw [fill, Sql.Expr.references, references_fill left (by simp; omega),
        references_fill right (by simp; omega), ← List.map_append, List.take_append_drop]
  | .isNull operand _, _, sameLength => references_fill operand sameLength
  | .inList operand items _, relations, sameLength => by
      have bound :
          relations.length = operand.contexts.length + (contextsList items).length := by
        simpa [contexts] using sameLength
      rw [fill, Sql.Expr.references, references_fill operand (by simp; omega),
        references_fillList items (by simp; omega), ← List.map_append, List.take_append_drop]
  | .call _ args _, _, sameLength => references_fillList args sameLength
  | .aliased operand _, _, sameLength => references_fill operand sameLength

theorem Query.Term.references_fillList : (terms : List Term) → {relations : List Relation} →
    relations.length = (contextsList terms).length →
    referencesList (fillList terms relations) = relations.map Relation.reference
  | [], _, sameLength => by
      obtain rfl := List.length_eq_zero_iff.1 sameLength
      rfl
  | term :: others, relations, sameLength => by
      have bound :
          relations.length = term.contexts.length + (contextsList others).length := by
        simpa [contextsList] using sameLength
      rw [fillList, referencesList, references_fill term (by simp; omega),
        references_fillList others (by simp; omega), ← List.map_append, List.take_append_drop]

end

/-! ## Scope of lowered terms -/

namespace Planning

variable {plan after : Plan} {events : List Query.Event}

/-- All references of the expressions are qualifiers of the plan. -/
def Scoped (plan : Plan) (exprs : List Expr) : Prop :=
  ∀ expr ∈ exprs, ∀ reference ∈ expr.references,
    ∃ qualifier ∈ plan.qualifiers, reference = some qualifier

theorem Scoped.grow {exprs : List Expr} (inScope : Scoped plan exprs)
    (grows : plan.Grows after) : Scoped after exprs := by
  intro expr isExpr reference isReference
  obtain ⟨qualifier, member, same⟩ := inScope expr isExpr reference isReference
  exact ⟨qualifier, grows.qualifier_mem member, same⟩

theorem Scoped.append {exprs others : List Expr} (first : Scoped plan exprs)
    (second : Scoped plan others) : Scoped plan (exprs ++ others) := by
  intro expr isExpr
  exact (List.mem_append.1 isExpr).elim (first expr) (second expr)

theorem scoped_lowerList {terms : List Term} {exprs : List Expr}
    (lowered : lowerList terms plan = ⟨.ok exprs, after, events⟩) : Scoped after exprs := by
  rw [lowerList_eq] at lowered
  obtain ⟨relations, _, _, _, joined, given, -⟩ := bind_eq_ok lowered
  cases given
  intro expr isExpr reference isReference
  have member : reference ∈ referencesList (fillList terms relations) := by
    rw [referencesList_eq_flatMap]
    exact List.mem_flatMap.2 ⟨expr, isExpr, isReference⟩
  rw [Term.references_fillList terms (length_of_joinAll joined)] at member
  obtain ⟨relation, isGiven, rfl⟩ := List.mem_map.1 member
  exact ⟨relation.qualifier, qualifier_mem_of_joinAll joined relation isGiven, rfl⟩

/-- A filter is lowered as the list of at most one term. -/
theorem lowerFilter_eq (filter : Option Term) :
    lowerFilter filter = (do
      let exprs ← lowerList filter.toList
      pure exprs.head?) := by
  cases filter with
  | none => rfl
  | some term =>
      simp [lowerFilter, lowerList, give_eq_pure]

theorem scoped_lowerFilter {filter : Option Term} {expr : Option Expr}
    (lowered : lowerFilter filter plan = ⟨.ok expr, after, events⟩) :
    Scoped after expr.toList := by
  rw [lowerFilter_eq] at lowered
  obtain ⟨exprs, _, _, _, first, given, -⟩ := bind_eq_ok lowered
  cases given
  intro expr isExpr
  exact scoped_lowerList first expr (List.mem_of_mem_head? (Option.mem_toList.1 isExpr))

theorem Growing.lowerList (terms : List Term) : Growing (lowerList terms) := by
  rw [lowerList_eq]
  exact bind (joinAll _) fun _ => give _

theorem Growing.lowerFilter (filter : Option Term) : Growing (lowerFilter filter) := by
  rw [lowerFilter_eq]
  exact bind (lowerList _) fun _ => give _

end Planning

/-! ## Scope of statements -/

namespace Plan

variable (plan : Plan) (projection : List Expr) (filter : Option Expr)

/-- The join of an entry in a statement. -/
def Entry.toJoin (entry : Entry) : Join :=
  { kind := entry.kind
    relation := entry.relation
    on := entry.on }

theorem foldl_join (select : Select) (entries : List Entry) :
    entries.foldl (fun select entry => select.join entry.kind entry.relation entry.on) select =
      { select with joins := select.joins ++ entries.map Entry.toJoin } := by
  induction entries generalizing select with
  | nil => simp
  | cons entry others inductionHypothesis =>
      rw [List.foldl_cons, inductionHypothesis]
      simp [Select.join, Entry.toJoin]

/-- All clauses of the statement of a plan. -/
theorem toSelect_eq :
    plan.toSelect projection filter =
      { columns :=
          if projection.isEmpty then [.wildcard (some plan.base.qualifier)] else projection
        base := some plan.base
        joins := plan.entries.map Entry.toJoin
        filter } := by
  unfold toSelect
  dsimp only
  rw [foldl_join]
  cases filter <;> simp [Projection.over, Select.filterBy]

theorem relations_toSelect :
    (plan.toSelect projection filter).relations =
      plan.base :: plan.entries.map (·.relation) := by
  simp [toSelect_eq, Select.relations, Entry.toJoin, Function.comp_def]

theorem mem_qualifiers {plan : Plan} {qualifier : String} :
    qualifier ∈ plan.qualifiers ↔
      ∃ relation ∈ plan.base :: plan.entries.map (·.relation), relation.qualifier = qualifier := by
  simp [qualifiers, eq_comm]

end Plan

namespace Planning

theorem scoped_toSelect {plan : Plan} {projection : List Expr} {filter : Option Expr}
    (scopedProjection : Scoped plan projection) (scopedFilter : Scoped plan filter.toList) :
    Scoped plan (plan.toSelect projection filter).expressions := by
  simp only [Select.expressions, Plan.toSelect_eq]
  refine .append ?_ scopedFilter
  split
  · intro expr isExpr reference isReference
    obtain rfl := List.mem_singleton.1 isExpr
    obtain rfl := List.mem_singleton.1 isReference
    exact ⟨_, plan.base_qualifier_mem, rfl⟩
  · exact scopedProjection

/-- A built statement is that of the plan in the end, and in its scope. -/
theorem select_eq_ok {projection : List Term} {filter : Option Term} {plan after : Plan}
    {select : Select} {events : List Query.Event}
    (built : Planning.select projection filter plan = ⟨.ok select, after, events⟩) :
    plan.Grows after ∧ ∃ columns condition, select = after.toSelect columns condition ∧
      Scoped after select.expressions := by
  obtain ⟨columns, middle, _, _, first, rest, -⟩ := bind_eq_ok built
  obtain ⟨condition, last, _, _, second, given, -⟩ := bind_eq_ok rest
  cases given
  -- The columns are in scope of the plan in the middle, which the filter may
  -- still let grow.
  have grows := Growing.lowerList projection plan
  have growsOn := Growing.lowerFilter filter middle
  rw [first] at grows
  rw [second] at growsOn
  exact ⟨grows.trans growsOn, columns, condition, rfl,
    scoped_toSelect ((scoped_lowerList first).grow growsOn) (scoped_lowerFilter second)⟩

/-- A statement that is built after any run selects from the root and joins
the entries of the final plan in order, and every column and wildcard in its
columns and filter is qualified by one of its relations. -/
theorem select_scoped (root : Table Term) (operations : List Operation)
    (projection : List Term) (filter : Option Term) (select : Select)
    (built : (Planning.select projection filter (Run.of root operations).plan).result =
      .ok select) :
    select.base = some root.relation ∧
    select.joins =
      (Planning.select projection filter (Run.of root operations).plan).plan.entries.map
        Plan.Entry.toJoin ∧
    ∀ expr ∈ select.columns ++ select.filter.toList, ∀ reference ∈ expr.references,
      ∃ relation ∈ select.base.toList ++ select.joins.map (·.relation),
        reference = some relation.qualifier := by
  rcases ran : Planning.select projection filter (Run.of root operations).plan with
    ⟨result, after, events⟩
  rw [ran] at built
  obtain rfl : result = .ok select := built
  obtain ⟨grows, columns, condition, rfl, inScope⟩ := select_eq_ok ran
  refine ⟨?_, ?_, ?_⟩
  · rw [Plan.toSelect_eq, grows.base, Run.base_of]
  · rw [Plan.toSelect_eq]
  · intro expr isExpr reference isReference
    obtain ⟨qualifier, member, rfl⟩ := inScope expr isExpr reference isReference
    obtain ⟨relation, isRelation, rfl⟩ := Plan.mem_qualifiers.1 member
    rw [← Plan.relations_toSelect after columns condition] at isRelation
    exact ⟨relation, isRelation, rfl⟩

/-- A statement about employees whose manager has the boss's name. The alias
of the manager was given before, that of the boss is new. -/
def staffSelect : Select :=
  { columns := [.wildcard (some "employees")]
    base := some { table := { name := "employees" } }
    joins :=
      [⟨.inner, ⟨{ name := "employees" }, some "manager_employees"⟩,
          .binary .eq (.qualified "manager_employees" "id")
            (.qualified "employees" "manager_id")⟩,
        ⟨.inner, ⟨{ name := "employees" }, some "boss"⟩,
          .binary .eq (.qualified "boss" "id") (.qualified "employees" "manager_id")⟩]
    filter :=
      some (.binary .eq (.qualified "manager_employees" "name") (.qualified "boss" "name")) }

theorem staffSelect_scoped :
    (Planning.select [] (some Staff.sameName)
      (Run.of Staff.employees [.joinChain Staff.manager]).plan).result = .ok staffSelect ∧
    staffSelect.base = some Staff.employees.relation ∧
    staffSelect.joins =
      (Planning.select [] (some Staff.sameName)
        (Run.of Staff.employees [.joinChain Staff.manager]).plan).plan.entries.map
          Plan.Entry.toJoin ∧
    ∀ expr ∈ staffSelect.columns ++ staffSelect.filter.toList,
      ∀ reference ∈ expr.references,
        ∃ relation ∈ staffSelect.base.toList ++ staffSelect.joins.map (·.relation),
          reference = some relation.qualifier :=
  ⟨rfl, select_scoped Staff.employees [.joinChain Staff.manager] [] (some Staff.sameName)
    staffSelect rfl⟩

end Planning

end Joinery
