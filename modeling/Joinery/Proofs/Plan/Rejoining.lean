import Joinery.Proofs.Plan.JoinEvents
import Joinery.Proofs.Plan.Stability
import Joinery.Proofs.Values.Reflexive

/-!
Contract: joining a chain again raises no false conflict.

A hop that goes over an entry compares the kind and condition of the entry
with its own. The condition is computed anew, from the relation that the walk
stands at and the relation of the entry, which may have an automatic alias.
Both relations are the ones of the first join, because the entries of the
hops before are still there, so the condition is the first one as well. It is
told to differ from itself only if it holds a NaN.

Owns: hops without a NaN, and what a repeated walk logs.

Does not own: repeated joins that were told to differ already the first time.
-/

namespace Joinery

open Query (Chain Event Hop Table Term)
open Sql (Relation)

namespace Query

/-- Neither the chosen condition of the hop nor the declared one holds a
NaN. -/
def Hop.Ordinary (hop : Hop Term) : Prop :=
  ∀ condition, hop.table.condition = some condition ∨ hop.link.condition = some condition →
    NoNaN condition.floats

end Query

namespace Plan

variable {plan later : Plan}

/-- The condition of a hop without a NaN equals itself, whatever relations it
is between. -/
theorem hopCondition_beq_self {hop : Hop Term} (ordinary : hop.Ordinary)
    (owner target : Relation) :
    (hopCondition hop owner target == hopCondition hop owner target) = true := by
  show (hopCondition hop owner target).same (hopCondition hop owner target) = true
  unfold hopCondition
  split
  case h_1 condition chosen =>
    exact condition.same_detached_self (ordinary condition (.inl chosen))
  case h_2 condition _ declared =>
    exact condition.same_detached_self (ordinary condition (.inr declared))
  case h_3 => simp [Query.Link.keyCondition, Sql.Expr.qualified, Sql.Expr.same]

/-- The event that the entry is joined again as it was joined first. -/
def Entry.skipped (entry : Entry) : Event :=
  .duplicateSkipped entry.relation.qualifier entry.path

namespace Walk

variable {walk : Walk} {hop : Hop Term}

/-- A hop from where the walk stands finds nothing to differ at the entry. -/
def Repeats (walk : Walk) (hop : Hop Term) (entry : Entry) : Prop :=
  entry.joinedAgain hop.table.join (hopCondition hop walk.owner entry.relation) = entry.skipped

theorem repeats_newEntry (ordinary : hop.Ordinary) (plan : Plan) (walk : Walk) :
    walk.Repeats hop (walk.newEntry plan hop) := by
  unfold Repeats Entry.joinedAgain
  rw [if_pos ⟨rfl, hopCondition_beq_self ordinary _ _⟩]
  rfl

/-- An entry that is told not to differ is told to be skipped. -/
theorem repeats_of_unwarned {entry : Entry}
    (unwarned : ∀ qualifier path,
      Event.duplicateDiffers qualifier path ∉ (walk.reuse hop entry).events) :
    walk.Repeats hop entry := by
  unfold Repeats Entry.joinedAgain
  split
  case isTrue => rfl
  case isFalse differs =>
    refine absurd ?_ (unwarned entry.relation.qualifier entry.path)
    simp [reuse, Entry.joinedAgain, differs]

theorem grows_step (plan : Plan) (walk : Walk) (hop : Hop Term) :
    (walk.arrived plan).Grows ((walk.step plan hop).arrived plan) := by
  unfold step
  split
  · exact .refl _
  · rw [arrived_stage]
    exact .append _ _ _

theorem events_subset_step (plan : Plan) (walk : Walk) (hop : Hop Term) :
    walk.events ⊆ (walk.step plan hop).events := by
  unfold step
  split <;> exact List.subset_append_left _ _

/-- After a step without a warning, the entry of the hop is there, the walk
stands at its relation, and the same step would be skipped over it. -/
theorem Valid.repeats_step (valid : walk.Valid plan) (ordinary : hop.Ordinary)
    (unwarned : ∀ qualifier path,
      Event.duplicateDiffers qualifier path ∉ (walk.step plan hop).events) :
    ∃ entry ∈ ((walk.step plan hop).arrived plan).entries, entry.key = walk.keyTo hop ∧
      (walk.step plan hop).owner = entry.relation ∧ walk.Repeats hop entry := by
  obtain ⟨entry, isEntry, hasKey, stepEq⟩ | ⟨-, stepEq⟩ := valid.step_cases hop
  · rw [stepEq] at unwarned ⊢
    exact ⟨entry, isEntry, hasKey, rfl, repeats_of_unwarned unwarned⟩
  · rw [stepEq]
    refine ⟨walk.newEntry plan hop, ?_, key_newEntry plan walk hop, ?_,
      repeats_newEntry ordinary plan walk⟩
    · simp [arrived_stage]
    · simp only [stage, newEntry, entryUnder, taken_eq]

end Walk

/-- A walk without a warning is repeated on every plan that its own plan grows
into: it goes over the entries of its keys, skips each of them, and stands
where it stood. -/
theorem Consistent.walk_again (consistent : plan.Consistent) (laterConsistent : later.Consistent)
    {hops : List (Hop Term)} (ordinary : ∀ hop ∈ hops, hop.Ordinary)
    (unwarned : ∀ qualifier path,
      Event.duplicateDiffers qualifier path ∉ (plan.walk hops).events)
    (grows : ((plan.walk hops).arrived plan).Grows later) :
    ∃ entries ⊆ later.entries, entries.map Entry.key = hopKeys [] hops ∧
      later.walk hops =
        { staged := []
          owner := (plan.walk hops).owner
          path := hops.map segment
          events := entries.map Entry.skipped } := by
  induction hops using List.reverseRecOn with
  | nil =>
      have sameBase : later.base = plan.base := grows.base
      refine ⟨[], List.nil_subset _, rfl, ?_⟩
      rw [walk, List.foldl_nil, Walk.start, sameBase]
      rfl
  | append_singleton hops hop inductionHypothesis =>
      rw [walk_concat] at unwarned grows
      have valid := consistent.valid_walk hops
      obtain ⟨entries, areEntries, hasKeys, walked⟩ := inductionHypothesis
        (fun hop member => ordinary hop (List.mem_append_left _ member))
        (fun qualifier path told =>
          unwarned qualifier path (Walk.events_subset_step plan _ hop told))
        ((Walk.grows_step plan _ hop).trans grows)
      obtain ⟨entry, wasEntry, hasKey, owner, repeats⟩ := valid.repeats_step
        (ordinary hop (List.mem_append_right _ List.mem_cons_self)) unwarned
      have isEntry : entry ∈ later.entries := grows.entries.subset wasEntry
      -- The later walk stands where the first one stood, so the entry that it
      -- finds is the entry of the first step, under the same condition.
      have arrived : (later.walk hops).arrived later = later := by
        rw [walked, Walk.arrived, commit_nil]
      have sameKey : (later.walk hops).keyTo hop = (plan.walk hops).keyTo hop := by
        rw [keyTo_walk, keyTo_walk]
      have step : (later.walk hops).step later hop = (later.walk hops).reuse hop entry := by
        obtain ⟨found, isFound, foundKey, stepEq⟩ | ⟨isNew, -⟩ :=
          (laterConsistent.valid_walk hops).step_cases hop
        · rw [arrived] at isFound
          rw [stepEq, laterConsistent.eq_of_key_eq isFound isEntry
            (foundKey.trans (sameKey.trans hasKey.symm))]
        · rw [arrived, sameKey] at isNew
          exact absurd (mem_keys.2 ⟨entry, isEntry, hasKey⟩) isNew
      refine ⟨entries ++ [entry], ?_, ?_, ?_⟩
      · exact List.append_subset.2 ⟨areEntries, by simpa using isEntry⟩
      · rw [List.map_append, hasKeys, hopKeys_concat, List.nil_append, ← keyTo_walk plan,
          List.map_cons, List.map_nil, hasKey]
      · have told : entry.joinedAgain hop.table.join
            (hopCondition hop (plan.walk hops).owner entry.relation) = entry.skipped := repeats
        rw [walk_concat, walk_concat, step, walked, owner, List.map_append, List.map_append]
        simp only [Walk.reuse, Walk.pathTo, List.map_cons, List.map_nil, told]

end Plan

namespace Run

/-- A chain without a NaN in its conditions that was joined without the
warning that it differs is joined again without any event but one for each of
its hops, in their order, that its entry was skipped. This holds after any
operations before and after the first join, and the second one gives the same
relation and leaves the plan as it is. -/
theorem rejoined_quietly (root : Table Term) (before later : List Operation) (chain : Chain Term)
    (ordinary : ∀ hop ∈ chain.hops, hop.Ordinary) {relation : Relation} {after : Plan}
    {events : List Event}
    (joined : Planning.joinChain chain (of root before).plan = ⟨.ok relation, after, events⟩)
    (unwarned : ∀ qualifier path, Event.duplicateDiffers qualifier path ∉ events) :
    ∃ entries ⊆ (of root (before ++ .joinChain chain :: later)).plan.entries,
      entries.map Plan.Entry.key = Plan.hopKeys [] chain.hops ∧
      Planning.joinChain chain (of root (before ++ .joinChain chain :: later)).plan =
        ⟨.ok relation, (of root (before ++ .joinChain chain :: later)).plan,
          entries.map fun entry =>
            .duplicateSkipped entry.relation.qualifier entry.path⟩ := by
  have performed :
      ((Operation.joinChain chain).perform (of root before).plan).plan = after := by
    rw [Operation.perform, Planning.plan_bind_pure, joined]
  have grows := grows_of_performed root before later performed
  have stillRoot : Planning.isRoot (of root (before ++ .joinChain chain :: later)).plan
      chain.root = true := by
    rw [Planning.isRoot_of_grows (grows_append root before _)]
    exact Planning.isRoot_of_joinChain joined
  obtain ⟨rfl, rfl, rfl⟩ := Planning.joinChain_eq_ok joined
  obtain ⟨entries, areEntries, hasKeys, walked⟩ :=
    (recorded root before).consistent.walk_again
      (recorded root (before ++ .joinChain chain :: later)).consistent ordinary
      (fun qualifier path told => unwarned qualifier path (List.mem_append_left _ told)) grows
  refine ⟨entries, areEntries, hasKeys, ?_⟩
  rw [Planning.joinChain_of_isRoot stillRoot, walked]
  simp only [Plan.Walk.arrived, Plan.commit_nil, List.map_nil, List.append_nil]
  rfl

end Run

namespace Staff

/-- The chain to a manager who works more than half of the time. -/
def senior : Chain Term :=
  manager.mapTarget
    (·.on (.binary .gt (.column ⟨.chain manager, "share"⟩) (.value (.float 0.5))))

theorem ordinary_senior : ∀ hop ∈ senior.hops, hop.Ordinary := by
  intro hop member condition isCondition
  obtain rfl := List.mem_singleton.1 member
  rcases isCondition with chosen | declared
  · cases chosen
    intro number isNumber
    obtain rfl := List.mem_singleton.1 isNumber
    decide
  · cases declared

/-- The manager gets an automatic alias and a condition on a number, and is
joined again in silence after the boss was joined in between. -/
theorem senior_rejoined :
    ∃ relation,
      (Planning.joinChain senior (Run.of employees []).plan).result = .ok relation ∧
      ∃ entries ⊆
          (Run.of employees ([] ++ .joinChain senior :: [.lower sameName])).plan.entries,
        entries.map Plan.Entry.key = Plan.hopKeys [] senior.hops ∧
        Planning.joinChain senior
            (Run.of employees ([] ++ .joinChain senior :: [.lower sameName])).plan =
          ⟨.ok relation,
            (Run.of employees ([] ++ .joinChain senior :: [.lower sameName])).plan,
            entries.map fun entry =>
              .duplicateSkipped entry.relation.qualifier entry.path⟩ := by
  have unwarned : ∀ qualifier path, Event.duplicateDiffers qualifier path ∉
      (Planning.joinChain senior (Run.of employees []).plan).events := by
    intro qualifier path told
    have isLogged : Event.duplicateDiffers qualifier path ∈
        [Event.repeatedTableAliased "employees" "manager_employees",
          .joinAppended "employees" "manager_employees" [⟨"manager", none⟩] .inner] := told
    simp at isLogged
  exact ⟨_, rfl, Run.rejoined_quietly employees [] [.lower sameName] senior ordinary_senior rfl
    unwarned⟩

/-- Without the condition the same entry is told to differ. -/
example :
    (Planning.joinChain manager (Run.of employees [.joinChain senior]).plan).events =
      [.duplicateDiffers "manager_employees" [⟨"manager", none⟩]] := by
  rfl

end Staff

end Joinery
