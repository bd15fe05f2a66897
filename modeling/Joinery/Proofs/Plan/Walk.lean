import Joinery.Plan.Joins
import Joinery.Proofs.Plan.Consistent
import Mathlib.Data.List.Induction

/-!
Contract: walks along the hops of a chain.

The entries of a walk are staged, but every step looks and chooses as if
they were in the plan already: `Walk.find?_eq` and `Walk.taken_eq` state this
for look-ups and for taken qualifiers. A walk is therefore described by the
plan that it arrives at. `Walk.step_cases` says all that a step can do to
that plan: it goes over an entry that has the key of the hop, or it adds one
under that key if there is none.

Owns: the plan that a walk arrives at, its consistency, and the choice of a
relation for a new hop.

Does not own: what runs of operations keep, which other modules derive from
the steps.
-/

namespace Joinery.Plan

open Query (Chain Context Event Hop Segment Table Term)
open Sql (Relation)

/-! ## The relation of a new hop -/

section Choice

variable (taken : List String) (hop : Hop Term) (owner : Relation)

/-- All ways in which the relation of a new hop is chosen: its own while its
qualifier is free, its own with a warning if the alias is an explicit one,
and a free automatic alias otherwise. -/
theorem relationFor_cases :
    (hop.table.relation.qualifier ∉ taken ∧
      relationFor taken hop owner = (hop.table.relation, [])) ∨
    (hop.table.relation.qualifier ∈ taken ∧ hop.table.relation.aliasName.isSome ∧
      relationFor taken hop owner =
        (hop.table.relation, [.aliasCollides hop.table.relation.qualifier hop.name])) ∨
    (hop.table.relation.qualifier ∈ taken ∧ hop.table.relation.aliasName = none ∧
      relationFor taken hop owner =
        (⟨hop.table.relation.table, some (freeAlias taken (aliasStem hop owner))⟩,
          [.repeatedTableAliased hop.table.relation.table.name
            (freeAlias taken (aliasStem hop owner))])) := by
  unfold relationFor
  by_cases isTaken : hop.table.relation.qualifier ∈ taken
  · cases aliasName : hop.table.relation.aliasName <;> simp [isTaken, aliasName]
  · simp [isTaken]

theorem table_relationFor :
    (relationFor taken hop owner).1.table = hop.table.relation.table := by
  obtain ⟨-, choice⟩ | ⟨-, -, choice⟩ | ⟨-, -, choice⟩ := relationFor_cases taken hop owner <;>
    rw [choice]

end Choice

namespace Walk

variable {plan : Plan} {walk : Walk} {hop : Hop Term}

/-! ## The plan that a walk arrives at -/

/-- The plan with all entries that the walk has staged so far. -/
def arrived (plan : Plan) (walk : Walk) : Plan :=
  plan.commit walk.staged

theorem taken_eq : walk.taken plan = (walk.arrived plan).qualifiers := by
  simp [taken, arrived]

/-- The entry that the next hop gets if it needs one of its own. -/
def newEntry (plan : Plan) (walk : Walk) (hop : Hop Term) : Entry :=
  walk.entryUnder hop (relationFor (walk.arrived plan).qualifiers hop walk.owner).1

/-- The entry of a hop has the key of the hop, whatever its alias. -/
theorem key_newEntry (plan : Plan) (walk : Walk) (hop : Hop Term) :
    (walk.newEntry plan hop).key = walk.keyTo hop := by
  simp [newEntry, entryUnder, Entry.key, keyTo, pathTo, Key.of, segment, table_relationFor]

theorem arrived_reuse (entry : Entry) :
    (walk.reuse hop entry).arrived plan = walk.arrived plan := rfl

theorem arrived_stage :
    (walk.stage plan hop).arrived plan =
      (walk.arrived plan).append (walk.newEntry plan hop).key (walk.newEntry plan hop) := by
  rw [key_newEntry]
  simp only [arrived, stage, commit_concat, newEntry, taken_eq]

/-! ## Valid walks -/

/-- A walk over a consistent plan that stages entries under their keys and
arrives at a consistent plan. -/
structure Valid (plan : Plan) (walk : Walk) : Prop where
  before : plan.Consistent
  after : (walk.arrived plan).Consistent
  keyed : ∀ arrival ∈ walk.staged, arrival.2.key = arrival.1

theorem valid_start (consistent : plan.Consistent) : (start plan).Valid plan where
  before := consistent
  after := consistent
  keyed := by simp [start]

namespace Valid

variable (valid : walk.Valid plan)
include valid

/-- Staged entries are found as if they were in the plan. -/
theorem find?_eq (key : Key) : walk.find? plan key = (walk.arrived plan).find? key := by
  unfold Walk.find?
  cases inPlan : plan.find? key with
  | some entry =>
      obtain ⟨isEntry, hasKey⟩ := valid.before.find?_eq_some_iff.1 inPlan
      have arrives : entry ∈ (walk.arrived plan).entries := by simp [arrived, isEntry]
      rw [Option.some_or, valid.after.find?_eq_some_iff.2 ⟨arrives, hasKey⟩]
  | none =>
      rw [Option.none_or]
      cases isStaged : walk.staged.lookup key with
      | some entry =>
          have member : (key, entry) ∈ walk.staged := mem_of_lookup isStaged
          have arrives : entry ∈ (walk.arrived plan).entries := by
            simp only [arrived, entries_commit, List.mem_append, List.mem_map]
            exact .inr ⟨_, member, rfl⟩
          rw [valid.after.find?_eq_some_iff.2 ⟨arrives, valid.keyed _ member⟩]
      | none =>
          -- An entry of the plan at arrival is an old one or a staged one.
          have notInPlan := valid.before.find?_eq_none_iff.1 inPlan
          have notStaged := List.lookup_eq_none_iff.1 isStaged
          rw [eq_comm, valid.after.find?_eq_none_iff, mem_keys]
          rintro ⟨entry, isEntry, rfl⟩
          simp only [arrived, entries_commit, List.mem_append, List.mem_map] at isEntry
          rcases isEntry with inPlan | ⟨arrival, member, rfl⟩
          · exact notInPlan (mem_keys.2 ⟨entry, inPlan, rfl⟩)
          · simpa [valid.keyed _ member] using notStaged _ member

/-- A step goes over the entry that has the key of the hop, or adds one. -/
theorem step_cases (hop : Hop Term) :
    (∃ entry ∈ (walk.arrived plan).entries, entry.key = walk.keyTo hop ∧
      walk.step plan hop = walk.reuse hop entry) ∨
    (walk.keyTo hop ∉ (walk.arrived plan).keys ∧
      walk.step plan hop = walk.stage plan hop) := by
  have found := valid.find?_eq (walk.keyTo hop)
  unfold step
  cases atKey : (walk.arrived plan).find? (walk.keyTo hop) with
  | some entry =>
      obtain ⟨isEntry, hasKey⟩ := valid.after.find?_eq_some_iff.1 atKey
      exact .inl ⟨entry, isEntry, hasKey, by rw [found, atKey]⟩
  | none =>
      exact .inr ⟨valid.after.find?_eq_none_iff.1 atKey, by rw [found, atKey]⟩

theorem step (hop : Hop Term) : (walk.step plan hop).Valid plan := by
  obtain ⟨entry, -, -, stepEq⟩ | ⟨isNew, stepEq⟩ := valid.step_cases hop
  · rw [stepEq]
    exact ⟨valid.before, valid.after, valid.keyed⟩
  · rw [stepEq]
    refine ⟨valid.before, ?_, ?_⟩
    · rw [arrived_stage]
      exact valid.after.append (by rwa [key_newEntry])
    · intro arrival member
      simp only [stage, List.mem_append, List.mem_singleton] at member
      rcases member with earlier | rfl
      · exact valid.keyed _ earlier
      · simpa only [newEntry, taken_eq] using key_newEntry plan walk hop

/-- The walk stands at the relation of the entry of the hop just made. -/
theorem owner_step (hop : Hop Term) :
    ∃ entry ∈ ((walk.step plan hop).arrived plan).entries,
      entry.key = walk.keyTo hop ∧ (walk.step plan hop).owner = entry.relation := by
  obtain ⟨entry, isEntry, hasKey, stepEq⟩ | ⟨-, stepEq⟩ := valid.step_cases hop
  · rw [stepEq]
    exact ⟨entry, isEntry, hasKey, rfl⟩
  · rw [stepEq]
    refine ⟨walk.newEntry plan hop, ?_, key_newEntry plan walk hop, ?_⟩
    · simp [arrived_stage]
    · simp only [stage, newEntry, entryUnder, taken_eq]

end Valid

@[simp]
theorem path_step (plan : Plan) (walk : Walk) (hop : Hop Term) :
    (walk.step plan hop).path = walk.pathTo hop := by
  unfold step
  split <;> rfl

end Walk

/-! ## Walks along a list of hops -/

variable {plan : Plan}

theorem walk_concat (plan : Plan) (hops : List (Hop Term)) (hop : Hop Term) :
    plan.walk (hops ++ [hop]) = (plan.walk hops).step plan hop := by
  simp [walk, List.foldl_append]

theorem path_walk (plan : Plan) (hops : List (Hop Term)) :
    (plan.walk hops).path = hops.map segment := by
  induction hops using List.reverseRecOn with
  | nil => rfl
  | append_singleton hops hop inductionHypothesis =>
      simp [walk_concat, Walk.pathTo, inductionHypothesis]

theorem Consistent.valid_walk (consistent : plan.Consistent) (hops : List (Hop Term)) :
    (plan.walk hops).Valid plan := by
  induction hops using List.reverseRecOn with
  | nil => exact Walk.valid_start consistent
  | append_singleton hops hop inductionHypothesis =>
      rw [walk_concat]
      exact inductionHypothesis.step hop

end Joinery.Plan
