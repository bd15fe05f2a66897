import Joinery.Proofs.Plan.Run
import Joinery.Proofs.Plan.Traversal

/-!
Contract: a plan is the list of first traversals of a run.

The joins that a run carries out traverse keys, hop by hop. A recorded run
has one entry for each of these keys, in the order in which they were
traversed first; its index gives the position of each key, and the relation
that a join was given is that of the entry under the key of its source.
Every run is recorded.

Owns: traversed keys of a run, and what the plan records of them.

Does not own: the qualifiers of the entries.
-/

namespace Joinery

open Query (Context Event Table Term)
open Sql (Relation)

namespace Run

/-- The keys that all joins of the run traversed, in order, with
repetitions. -/
def traversals (run : Run) : List Plan.Key :=
  run.joined.flatMap fun joined => Plan.traversed joined.source

/-- The plan is the record of what the run traversed. -/
structure Recorded (run : Run) : Prop where
  consistent : run.plan.Consistent
  keys : run.plan.keys = run.traversals.eraseDups
  given : ∀ joined ∈ run.joined, ∃ entry ∈ run.plan.entries,
    entry.key = Plan.keyOf joined.source ∧ entry.relation = joined.relation

theorem recorded_start (root : Table Term) : (start root).Recorded where
  consistent := Plan.consistent_ofRoot root
  keys := rfl
  given := by simp [start]

theorem Recorded.join {run : Run} (recorded : run.Recorded) {source : Context Term}
    {relation : Relation} {after : Plan} (log : List Event)
    (effect : Plan.JoinEffect run.traversals source relation after)
    (grows : run.plan.Grows after) :
    Recorded ⟨after, log, run.joined ++ [⟨source, relation⟩]⟩ where
  consistent := effect.consistent
  keys := by
    rw [effect.keys]
    simp [traversals]
  given := by
    intro joined member
    rcases List.mem_append.1 member with earlier | new
    · obtain ⟨entry, isEntry, agrees⟩ := recorded.given joined earlier
      exact ⟨entry, grows.entries.subset isEntry, agrees⟩
    · obtain rfl := List.mem_singleton.1 new
      exact effect.entry

theorem kept_recorded : Kept Recorded where
  chain {run chain _ _ _} recorded joined := by
    have grows := Planning.Growing.joinChain chain run.plan
    rw [joined] at grows
    exact recorded.join _ (recorded.consistent.joinChain recorded.keys joined) grows
  table {run table _ _ _} recorded joined := by
    have grows := Planning.Growing.joinTable table run.plan
    rw [joined] at grows
    exact recorded.join _ (recorded.consistent.joinTable recorded.keys joined) grows

theorem recorded (root : Table Term) (operations : List Operation) :
    (of root operations).Recorded :=
  kept_recorded.of (recorded_start root) operations

/-- The entries of a plan stand, one for one and in order, for the keys that
the run traversed, without later repetitions. The index gives the position
of each of them and holds nothing else, and further operations only add
entries at the end. -/
theorem entries_firstTraversals (root : Table Term) (operations : List Operation) :
    (of root operations).plan.entries.map Plan.Entry.key =
      (of root operations).traversals.eraseDups ∧
    (∀ key position, (of root operations).plan.position? key = some position ↔
      (of root operations).traversals.eraseDups[position]? = some key) ∧
    (of root operations).plan.index.length = (of root operations).traversals.eraseDups.length ∧
    ∀ later, (of root operations).plan.entries <+:
      (of root (operations ++ later)).plan.entries := by
  have recorded := recorded root operations
  have consistent := recorded.consistent
  refine ⟨recorded.keys, ?_, ?_, ?_⟩
  · intro key position
    rw [← recorded.keys]
    exact consistent.position key position
  · rw [← recorded.keys, Plan.length_keys]
    exact consistent.size
  · intro later
    exact (grows_append root operations later).entries

/-- The manager is joined twice and has one entry, the boss has another. -/
example :
    (of Staff.employees [.joinChain Staff.manager, .lower Staff.sameName]).plan.keys =
      [⟨{ name := "employees" }, none, [⟨"manager", none⟩]⟩,
        ⟨{ name := "employees" }, some "boss", [⟨"manager", some "boss"⟩]⟩] := by
  decide

end Run

end Joinery
