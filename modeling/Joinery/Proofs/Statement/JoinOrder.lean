import Joinery.Proofs.Plan.Parents
import Joinery.Proofs.Statement.Scope

/-!
Contract: the joins of a statement come after what their conditions need.

A statement that is built after a run is the statement of a longer run, which
also lowered the projection and the filter. Its joins are the entries of that
run. An entry with a path is joined to its parent, which stands before it, so
a join on the equality of keys reads only from the base, from earlier joins,
and from the relation that it joins. Conditions that were written by hand are
taken as they are and may read from anywhere.

Owns: built statements as runs, and what joins on keys refer to.

Does not own: the references of columns and filters.
-/

namespace Joinery

open Query (Hop Table Term)
open Sql (Expr Join Relation Select)

namespace Run

/-! ## Lowering as a part of a run -/

variable {run : Run} {after : Plan} {events : List Query.Event}

theorem plan_next_lower {term : Term} {expr : Expr}
    (lowered : Planning.lower term run.plan = ⟨.ok expr, after, events⟩) :
    (run.next (.lower term)).plan = after := by
  rw [plan_next, Operation.perform, Planning.plan_bind_pure, lowered]

theorem plan_foldl_lower {terms : List Term} {exprs : List Expr}
    (lowered : Planning.lowerList terms run.plan = ⟨.ok exprs, after, events⟩) :
    ((terms.map Operation.lower).foldl next run).plan = after := by
  induction terms generalizing run exprs events with
  | nil =>
      cases lowered
      rfl
  | cons term others inductionHypothesis =>
      obtain ⟨expr, middle, _, _, first, rest, -⟩ := Planning.bind_eq_ok lowered
      obtain ⟨exprs, last, _, _, second, given, -⟩ := Planning.bind_eq_ok rest
      cases given
      rw [← plan_next_lower first] at second
      exact inductionHypothesis second

/-- A statement is built after a run by lowering the projection, then the
filter, and is that of the plan after the longer run that does so. -/
theorem select_lowered {root : Table Term} {operations : List Operation}
    {projection : List Term} {filter : Option Term} {select : Select}
    (built : (Planning.select projection filter (of root operations).plan).result = .ok select) :
    let final := of root (operations ++ (projection ++ filter.toList).map .lower)
    (Planning.select projection filter (of root operations).plan).plan = final.plan ∧
    ∃ columns exprs middle earlier later,
      Planning.lowerList projection (of root operations).plan = ⟨.ok columns, middle, earlier⟩ ∧
      Planning.lowerList filter.toList middle = ⟨.ok exprs, final.plan, later⟩ ∧
      select = final.plan.toSelect columns exprs.head? := by
  obtain ⟨_, _, ran⟩ := Planning.eq_of_result built
  rw [ran]
  obtain ⟨columns, middle, _, _, first, rest, -⟩ := Planning.bind_eq_ok ran
  obtain ⟨condition, last, _, _, second, given, -⟩ := Planning.bind_eq_ok rest
  cases given
  rw [Planning.lowerFilter_eq] at second
  obtain ⟨exprs, last, _, _, lowered, given, -⟩ := Planning.bind_eq_ok second
  cases given
  have onward := lowered
  rw [← plan_foldl_lower first] at onward
  have atLast := plan_foldl_lower onward
  rw [← List.foldl_append, ← List.map_append, ← of_append] at atLast
  dsimp only
  rw [atLast]
  exact ⟨rfl, columns, exprs, middle, _, _, first, lowered, rfl⟩

/-- A statement that is built after a run is that of the plan after a longer
run, which also lowers the projection and the filter. -/
theorem select_eq_toSelect {root : Table Term} {operations : List Operation}
    {projection : List Term} {filter : Option Term} {select : Select}
    (built : (Planning.select projection filter (of root operations).plan).result = .ok select) :
    ∃ columns condition, select =
      (of root (operations ++ (projection ++ filter.toList).map .lower)).plan.toSelect
        columns condition := by
  obtain ⟨-, columns, exprs, _, _, _, -, -, same⟩ := select_lowered built
  exact ⟨columns, exprs.head?, same⟩

/-! ## Joins on keys -/

/-- Where a join of the statement is the equality of keys of a hop, it refers
only to the base, to earlier joins, and to the relation that it joins. -/
def KeyJoinsInScope (run : Run) (select : Select) : Prop :=
  ∀ (position : Nat) (join : Join), select.joins[position]? = some join →
    ∃ entry, run.plan.entries[position]? = some entry ∧ join = entry.toJoin ∧
      ∀ hop, run.firstHop? entry.key = some hop → hop.ByKeys →
        ∀ reference ∈ join.on.references,
          ∃ relation ∈ select.base.toList ++
              (select.joins.take (position + 1)).map (·.relation),
            reference = some relation.qualifier

end Run

namespace Plan

variable {plan : Plan} {position : Nat} {entry : Entry} {hop : Hop Term}
  {owner target : Relation} {on : Expr}

/-- The equality of keys refers to the two relations that it is about. -/
theorem JoinedOn.references (joinedOn : JoinedOn hop owner target on) (byKeys : hop.ByKeys) :
    on.references = [some target.qualifier, some owner.qualifier] := by
  cases joinedOn with
  | chosen own =>
      rw [byKeys.1] at own
      cases own
  | declared noOwn declared =>
      rw [byKeys.2] at declared
      cases declared
  | belongsTo _ _ => rfl
  | has _ _ => rfl

theorem relation_mem_upTo {other : Nat} (atPosition : plan.entries[position]? = some entry)
    (upTo : position ≤ other) :
    entry.relation ∈ (plan.entries.take (other + 1)).map (·.relation) := by
  apply List.mem_map_of_mem
  rw [List.mem_take_iff_getElem]
  obtain ⟨bound, rfl⟩ := List.getElem?_eq_some_iff.1 atPosition
  exact ⟨position, by omega, rfl⟩

/-- A parent is the base or stands before the entry. -/
theorem ParentOf.mem_upTo (parent : plan.ParentOf position entry owner) :
    owner ∈ plan.base :: (plan.entries.take (position + 1)).map (·.relation) := by
  cases parent with
  | base single => exact List.mem_cons_self
  | entry before atEarlier continued notEmpty =>
      exact List.mem_cons_of_mem _ (relation_mem_upTo atEarlier (Nat.le_of_lt before))

end Plan

namespace Run

theorem keyJoinsInScope_toSelect (root : Table Term) (operations : List Operation)
    (columns : List Expr) (condition : Option Expr) :
    (of root operations).KeyJoinsInScope
      ((of root operations).plan.toSelect columns condition) := by
  intro position join atPosition
  rw [Plan.toSelect_eq] at atPosition ⊢
  simp only [List.getElem?_map, Option.map_eq_some_iff] at atPosition
  obtain ⟨entry, isEntry, rfl⟩ := atPosition
  refine ⟨entry, isEntry, rfl, ?_⟩
  intro hop isFirst byKeys reference isReference
  have hasPath : entry.path ≠ [] := by
    rw [← Plan.path_key entry]
    exact path_ne_nil_of_firstHop? isFirst
  obtain ⟨hop', isFirst', -, owner, parent, joinedOn⟩ :=
    explained root operations position entry isEntry hasPath
  obtain rfl : hop = hop' := Option.some.inj (isFirst.symm.trans isFirst')
  have references : entry.toJoin.on.references =
      [some entry.relation.qualifier, some owner.qualifier] :=
    joinedOn.references byKeys
  have relations :
      (some (of root operations).plan.base).toList ++
          ((((of root operations).plan.entries.map Plan.Entry.toJoin).take (position + 1)).map
            (·.relation)) =
        (of root operations).plan.base ::
          ((of root operations).plan.entries.take (position + 1)).map (·.relation) := by
    simp [← List.map_take, Plan.Entry.toJoin, Function.comp_def]
  rw [references] at isReference
  rw [relations]
  rcases List.mem_pair.1 isReference with rfl | rfl
  · have isSelf := Plan.relation_mem_upTo isEntry (Nat.le_refl position)
    exact ⟨entry.relation, List.mem_cons_of_mem _ isSelf, rfl⟩
  · exact ⟨owner, parent.mem_upTo, rfl⟩

/-- Every entry with a path is joined as the hop says that traversed its key
first: with that hop's kind, and on its condition, the one declared for its
association, or the equality of keys with the parent, which stands before the
entry. In every statement of the plan, and in every statement that is built
after the run, the joins on keys refer only to the base, to earlier joins and
to themselves. -/
theorem entries_after_parents (root : Table Term) (operations : List Operation) :
    (∀ (position : Nat) (entry : Plan.Entry),
      (of root operations).plan.entries[position]? = some entry → entry.path ≠ [] →
      ∃ hop, (of root operations).firstHop? entry.key = some hop ∧
        entry.kind = hop.table.join ∧
        ∃ owner, (of root operations).plan.ParentOf position entry owner ∧
          Plan.JoinedOn hop owner entry.relation entry.on) ∧
    (∀ columns condition, (of root operations).KeyJoinsInScope
      ((of root operations).plan.toSelect columns condition)) ∧
    ∀ projection filter select,
      (Planning.select projection filter (of root operations).plan).result = .ok select →
      (of root (operations ++ (projection ++ filter.toList).map .lower)).KeyJoinsInScope
        select := by
  refine ⟨explained root operations, keyJoinsInScope_toSelect root operations, ?_⟩
  intro projection filter select built
  obtain ⟨columns, condition, rfl⟩ := select_eq_toSelect built
  exact keyJoinsInScope_toSelect root _ columns condition

end Run

namespace Staff

/-- The name of the director, who is the manager of the manager. -/
def directorName : Term :=
  .column ⟨.chain director, "name"⟩

/-- The director is joined on the key of the manager, who was joined before
under an automatic alias. -/
def directorEntry : Plan.Entry :=
  { relation := { table := { name := "employees" }, aliasName := some "manager_employees_2" }
    kind := .inner
    on :=
      .binary .eq (.qualified "manager_employees_2" "id")
        (.qualified "manager_employees" "manager_id")
    path := [⟨"manager", none⟩, ⟨"manager", none⟩] }

/-- The statement that selects the name of the director. -/
def directorSelect : Select :=
  { columns := [.qualified "manager_employees_2" "name"]
    base := some { table := { name := "employees" } }
    joins :=
      [⟨.inner, managerRelation,
        .binary .eq (.qualified "manager_employees" "id") (.qualified "employees" "manager_id")⟩,
      directorEntry.toJoin]
    filter := none }

theorem director_after_manager :
    ((Run.of employees [.joinChain director]).plan.entries[1]? = some directorEntry ∧
      directorEntry.path ≠ [] ∧
      ∃ hop, (Run.of employees [.joinChain director]).firstHop? directorEntry.key = some hop ∧
        directorEntry.kind = hop.table.join ∧
        ∃ owner,
          (Run.of employees [.joinChain director]).plan.ParentOf 1 directorEntry owner ∧
          Plan.JoinedOn hop owner directorEntry.relation directorEntry.on) ∧
    (Planning.select [directorName] none (Run.of employees [.joinChain manager]).plan).result =
        .ok directorSelect ∧
      (Run.of employees [.joinChain manager, .lower directorName]).KeyJoinsInScope
        directorSelect := by
  obtain ⟨entries, -, -⟩ := Run.entries_after_parents employees [.joinChain director]
  obtain ⟨-, -, selects⟩ := Run.entries_after_parents employees [.joinChain manager]
  have atOne : (Run.of employees [.joinChain director]).plan.entries[1]? = some directorEntry := rfl
  have hasPath : directorEntry.path ≠ [] := by simp [directorEntry]
  have built : (Planning.select [directorName] none
      (Run.of employees [.joinChain manager]).plan).result = .ok directorSelect := rfl
  exact ⟨⟨atOne, hasPath, entries 1 directorEntry atOne hasPath⟩, built, selects _ none _ built⟩

end Staff

end Joinery
