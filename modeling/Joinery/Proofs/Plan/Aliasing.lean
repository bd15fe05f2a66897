import Joinery.Proofs.Plan.Run

/-!
Contract: automatic aliases are assigned where the log says so.

An entry is aliased automatically if its relation does not have the alias
that was chosen for it. A run logs an event for this exactly if its plan has
such an entry.

Owns: automatically aliased entries, and the events about them.

Does not own: which alias is assigned.
-/

namespace Joinery

open Query (Chain Event Hop Table Term)
open Sql (Relation)

/-- A table was given an alias because it is in the plan already. -/
def Query.Event.isAliasing : Event → Bool
  | .repeatedTableAliased _ _ => true
  | _ => false

namespace Plan

/-- The alias is not the one that was chosen. -/
def Entry.isAutoAliased (entry : Entry) : Bool :=
  entry.relation.aliasName != entry.key.aliasName

theorem isAliasing_joinedAgain (entry : Entry) (kind : Sql.JoinKind) (on : Sql.Expr) :
    (entry.joinedAgain kind on).isAliasing = false := by
  unfold Entry.joinedAgain
  split <;> rfl

theorem any_isAliasing_appended (staged : List (Key × Entry)) :
    (staged.map fun arrival => arrival.2.appended).any Event.isAliasing = false := by
  rw [List.any_eq_false]
  intro event member
  obtain ⟨arrival, -, rfl⟩ := List.mem_map.1 member
  simp [Entry.appended, Event.isAliasing]

namespace Walk

variable (plan : Plan) (walk : Walk) (hop : Hop Term)

theorem isAutoAliased_entryUnder (relation : Relation) :
    (walk.entryUnder hop relation).isAutoAliased =
      (relation.aliasName != hop.table.relation.aliasName) := by
  simp [Entry.isAutoAliased, Entry.key, entryUnder, pathTo, segment]

/-- The choice of a relation is logged if it is not the one of the hop. -/
theorem any_isAliasing_relationFor (taken : List String) (owner : Relation) :
    (relationFor taken hop owner).2.any Event.isAliasing =
      ((relationFor taken hop owner).1.aliasName != hop.table.relation.aliasName) := by
  obtain ⟨-, choice⟩ | ⟨-, -, choice⟩ | ⟨-, noAlias, choice⟩ := relationFor_cases taken hop owner
  · simp [choice]
  · simp [choice, Event.isAliasing]
  · simp [choice, noAlias, Event.isAliasing]

theorem any_isAliasing_step
    (before : walk.events.any Event.isAliasing =
      walk.staged.any fun arrival => arrival.2.isAutoAliased) :
    (walk.step plan hop).events.any Event.isAliasing =
      (walk.step plan hop).staged.any fun arrival => arrival.2.isAutoAliased := by
  unfold step
  split
  case h_1 entry _ =>
    simp only [reuse, List.any_append, before, List.any_cons, List.any_nil,
      isAliasing_joinedAgain, Bool.or_false]
  case h_2 =>
    simp only [stage, List.any_append, before, List.any_cons, List.any_nil,
      isAutoAliased_entryUnder, any_isAliasing_relationFor, Bool.or_false]

end Walk

theorem any_isAliasing_walk (plan : Plan) (hops : List (Hop Term)) :
    (plan.walk hops).events.any Event.isAliasing =
      (plan.walk hops).staged.any fun arrival => arrival.2.isAutoAliased := by
  induction hops using List.reverseRecOn with
  | nil => rfl
  | append_singleton hops hop inductionHypothesis =>
      rw [walk_concat]
      exact Walk.any_isAliasing_step plan _ hop inductionHypothesis

theorem isAutoAliased_tableEntry (table : Table Term) (condition : Term) :
    (tableEntry table condition).isAutoAliased = false :=
  bne_self_eq_false table.relation.aliasName

end Plan

namespace Run

theorem kept_any_isAliasing :
    Kept fun run =>
      run.log.any Event.isAliasing = run.plan.entries.any Plan.Entry.isAutoAliased where
  chain {run chain relation after events} before joined := by
    obtain ⟨-, rfl, rfl⟩ := Planning.joinChain_eq_ok joined
    rw [List.any_append, before, List.any_append, Plan.any_isAliasing_walk,
      Plan.any_isAliasing_appended, Bool.or_false, Plan.Walk.arrived, Plan.entries_commit,
      List.any_append, List.any_map]
    rfl
  table {run table relation after events} before joined := by
    obtain ⟨condition, -, ⟨entry, -, -, rfl, rfl⟩ | ⟨-, -, rfl, rfl⟩⟩ :=
      Planning.joinTable_eq_ok joined
    · simp only [List.any_append, before, List.any_cons, List.any_nil,
        Plan.isAliasing_joinedAgain, Bool.or_false]
    · have quiet : ((if table.relation.qualifier ∈ run.plan.qualifiers then
            [Event.qualifierReused table.relation.qualifier] else []) ++
          [(Plan.tableEntry table condition).appended]).any Event.isAliasing = false := by
        split <;> simp [Plan.Entry.appended, Event.isAliasing]
      rw [List.any_append, before, quiet, Plan.entries_append, List.any_append, List.any_cons,
        Plan.isAutoAliased_tableEntry]
      rfl

/-- The log of a run tells of an automatic alias exactly if an entry of its
plan has one. -/
theorem any_isAliasing_log (root : Table Term) (operations : List Operation) :
    (of root operations).log.any Event.isAliasing =
      (of root operations).plan.entries.any Plan.Entry.isAutoAliased :=
  kept_any_isAliasing.of rfl operations

/-- The manager of an employee is aliased, the boss has an alias already. -/
example :
    (of Staff.employees [.joinChain Staff.boss]).log.any Event.isAliasing = false ∧
      (of Staff.employees [.joinChain Staff.manager]).log.any Event.isAliasing = true := by
  decide

end Run

end Joinery
