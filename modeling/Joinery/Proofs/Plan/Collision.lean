import Joinery.Proofs.Plan.FirstTraversal
import Joinery.Proofs.Plan.FreeAlias

/-!
Contract: warnings about qualifiers that collide.

An entry collides if its qualifier is that of the base or of an earlier
entry. The log of a run warns about the colliding entries of its plan, about
each of them once and in their order, and about no other. An entry whose hop
was given no alias never collides, so a plan without a warning has distinct
qualifiers.

Owns: colliding entries, and the warnings about them.

Does not own: which automatic alias is chosen.
-/

namespace Joinery

open Query (Chain Context Event Hop Segment Table Term)
open Sql (Relation)

/-- The two warnings about a qualifier that is taken. -/
def Query.Event.isCollision : Event → Bool
  | .aliasCollides _ _ => true
  | .qualifierReused _ => true
  | _ => false

theorem Query.Event.isCollision_iff (event : Event) :
    event.isCollision ↔
      event.message = "explicit alias collides with a relation already in the plan" ∨
      event.message = "explicit join reuses a qualifier already present in the plan" := by
  cases event <;> simp [isCollision, message]

/-! ## Colliding entries -/

namespace Plan

/-- The warning about an entry whose qualifier is taken. It names the
association of a hop. -/
def Entry.collision (entry : Entry) : Event :=
  match entry.path.getLast? with
  | some segment => .aliasCollides entry.relation.qualifier segment.name
  | none => .qualifierReused entry.relation.qualifier

/-- The entries whose qualifier is that of the base or of an earlier entry,
in order. -/
def collidingAmong (base : String) (entries : List Entry) : List Entry :=
  (entries.zipIdx.filter fun place =>
    place.1.relation.qualifier ∈
      base :: (entries.take place.2).map (·.relation.qualifier)).map Prod.fst

/-- The colliding entries of a plan. -/
def colliding (plan : Plan) : List Entry :=
  collidingAmong plan.base.qualifier plan.entries

theorem collidingAmong_concat (base : String) (entries : List Entry) (entry : Entry) :
    collidingAmong base (entries ++ [entry]) =
      collidingAmong base entries ++
        if entry.relation.qualifier ∈ base :: entries.map (·.relation.qualifier) then [entry]
        else [] := by
  unfold collidingAmong
  rw [List.zipIdx_append, List.filter_append, List.map_append]
  congr 1
  -- What stands before an old entry does not change.
  · congr 1
    apply List.filter_congr
    intro place isPlace
    have before : place.2 < entries.length := by
      simpa using List.snd_lt_of_mem_zipIdx isPlace
    rw [List.take_append_of_le_length (Nat.le_of_lt before)]
  · rw [List.zipIdx_singleton, List.filter_singleton, Nat.zero_add, List.take_left]
    by_cases isTaken : entry.relation.qualifier ∈ base :: entries.map (·.relation.qualifier)
    · simp only [isTaken, decide_true, cond_true, if_true, List.map_singleton]
    · simp only [isTaken, decide_false, cond_false, if_false, List.map_nil]

theorem collidingAmong_eq_nil_iff (base : String) (entries : List Entry) :
    collidingAmong base entries = [] ↔
      (base :: entries.map (·.relation.qualifier)).Nodup := by
  induction entries using List.reverseRecOn with
  | nil => simp [collidingAmong]
  | append_singleton entries entry inductionHypothesis =>
      rw [collidingAmong_concat, List.append_eq_nil_iff, inductionHypothesis, List.map_append,
        ← List.cons_append, List.nodup_append]
      grind

/-- No entry collides exactly if all qualifiers differ. -/
theorem colliding_eq_nil_iff (plan : Plan) : plan.colliding = [] ↔ plan.qualifiers.Nodup :=
  collidingAmong_eq_nil_iff _ _

@[simp]
theorem colliding_append (plan : Plan) (key : Key) (entry : Entry) :
    (plan.append key entry).colliding =
      plan.colliding ++ if entry.relation.qualifier ∈ plan.qualifiers then [entry] else [] :=
  collidingAmong_concat _ _ _

/-! ## Warnings of one join -/

/-- The events on the way from one plan to another warn about the colliding
entries that are added, once about each, in order. The hops among these
entries were all given an alias. -/
def Warns (before : Plan) (events : List Event) (after : Plan) : Prop :=
  ∃ added, after.colliding = before.colliding ++ added ∧
    events.filter Event.isCollision = added.map Entry.collision ∧
    ∀ entry ∈ added, entry.path = [] ∨ entry.key.aliasName.isSome

variable {before middle after plan : Plan} {earlier later events : List Event}

/-- Events without warnings, on the way to the same plan. -/
theorem Warns.quiet (plan : Plan) (noWarning : events.filter Event.isCollision = []) :
    plan.Warns events plan :=
  ⟨[], by simp, by simpa using noWarning, by simp⟩

theorem Warns.trans (first : before.Warns earlier middle) (second : middle.Warns later after) :
    before.Warns (earlier ++ later) after := by
  obtain ⟨added, colliding, warnings, chosen⟩ := first
  obtain ⟨added', colliding', warnings', chosen'⟩ := second
  refine ⟨added ++ added', ?_, ?_, ?_⟩
  · rw [colliding', colliding, List.append_assoc]
  · rw [List.filter_append, warnings, warnings', List.map_append]
  · intro entry member
    exact (List.mem_append.1 member).elim (chosen entry) (chosen' entry)

/-- Adding an entry with the right warning. -/
theorem Warns.append (key : Key) {entry : Entry}
    (warned : events.filter Event.isCollision =
      if entry.relation.qualifier ∈ plan.qualifiers then [entry.collision] else [])
    (chosen : entry.relation.qualifier ∈ plan.qualifiers →
      entry.path = [] ∨ entry.key.aliasName.isSome) :
    plan.Warns events (plan.append key entry) := by
  refine ⟨_, colliding_append plan key entry, ?_, ?_⟩
  · rw [warned]
    split <;> simp
  · intro member isAdded
    split at isAdded
    case isTrue isTaken =>
      obtain rfl := List.mem_singleton.1 isAdded
      exact chosen isTaken
    case isFalse => cases isAdded

theorem joinedAgain_not_collision (entry : Entry) (kind : Sql.JoinKind) (on : Sql.Expr) :
    (entry.joinedAgain kind on).isCollision = false := by
  unfold Entry.joinedAgain
  split <;> rfl

theorem appended_filter_collision (staged : List (Key × Entry)) :
    (staged.map fun arrival => arrival.2.appended).filter Event.isCollision = [] := by
  rw [List.filter_eq_nil_iff]
  intro event member
  obtain ⟨arrival, -, rfl⟩ := List.mem_map.1 member
  simp [Entry.appended, Event.isCollision]

/-- The notices of a new hop warn exactly if its qualifier is taken, which
happens only to an alias that was chosen for the hop. -/
theorem Walk.collision_newEntry (plan : Plan) (walk : Walk) (hop : Hop Term) :
    (relationFor (walk.arrived plan).qualifiers hop walk.owner).2.filter Event.isCollision =
      (if (walk.newEntry plan hop).relation.qualifier ∈ (walk.arrived plan).qualifiers then
        [(walk.newEntry plan hop).collision] else []) ∧
    ((walk.newEntry plan hop).relation.qualifier ∈ (walk.arrived plan).qualifiers →
      hop.table.relation.aliasName.isSome) := by
  obtain ⟨isFree, choice⟩ | ⟨isTaken, isChosen, choice⟩ | ⟨-, -, choice⟩ :=
    relationFor_cases (walk.arrived plan).qualifiers hop walk.owner
  · have sameRelation : (walk.newEntry plan hop).relation = hop.table.relation := by
      rw [newEntry, choice, entryUnder]
    rw [sameRelation, choice, if_neg isFree]
    exact ⟨rfl, fun isTaken => absurd isTaken isFree⟩
  · have warning : (walk.newEntry plan hop).collision =
        .aliasCollides hop.table.relation.qualifier hop.name := by
      simp [newEntry, choice, entryUnder, Entry.collision, pathTo, segment]
    have sameRelation : (walk.newEntry plan hop).relation = hop.table.relation := by
      rw [newEntry, choice, entryUnder]
    rw [warning, sameRelation, choice, if_pos isTaken]
    exact ⟨rfl, fun _ => isChosen⟩
  · have isFree : (walk.newEntry plan hop).relation.qualifier ∉
        (walk.arrived plan).qualifiers := by
      rw [newEntry, choice, entryUnder]
      exact freeAlias_not_mem _ _
    rw [choice, if_neg isFree]
    exact ⟨rfl, fun isTaken => absurd isTaken isFree⟩

theorem Walk.Valid.warns_step {walk : Walk} (valid : walk.Valid plan) (hop : Hop Term)
    (warns : plan.Warns walk.events (walk.arrived plan)) :
    plan.Warns (walk.step plan hop).events ((walk.step plan hop).arrived plan) := by
  obtain ⟨entry, -, -, stepEq⟩ | ⟨-, stepEq⟩ := valid.step_cases hop
  · rw [stepEq, arrived_reuse]
    refine warns.trans (.quiet _ ?_)
    simp [joinedAgain_not_collision]
  · have choice := collision_newEntry plan walk hop
    rw [stepEq, arrived_stage, stage, taken_eq]
    refine warns.trans (.append _ choice.1 fun isTaken => .inr ?_)
    rw [key_newEntry]
    exact choice.2 isTaken

theorem Consistent.warns_walk (consistent : plan.Consistent) (hops : List (Hop Term)) :
    plan.Warns (plan.walk hops).events ((plan.walk hops).arrived plan) := by
  induction hops using List.reverseRecOn with
  | nil => exact .quiet plan rfl
  | append_singleton hops hop inductionHypothesis =>
      rw [walk_concat]
      exact (consistent.valid_walk hops).warns_step hop inductionHypothesis

variable {relation : Relation}

theorem Consistent.warns_joinChain (consistent : plan.Consistent) {chain : Chain Term}
    (joined : Planning.joinChain chain plan = ⟨.ok relation, after, events⟩) :
    plan.Warns events after := by
  obtain ⟨-, rfl, rfl⟩ := Planning.joinChain_eq_ok joined
  exact (consistent.warns_walk chain.hops).trans (.quiet _ (appended_filter_collision _))

theorem warns_joinTable {table : Table Term}
    (joined : Planning.joinTable table plan = ⟨.ok relation, after, events⟩) :
    plan.Warns events after := by
  obtain ⟨condition, -, ⟨entry, -, -, rfl, rfl⟩ | ⟨-, -, rfl, rfl⟩⟩ :=
    Planning.joinTable_eq_ok joined
  · exact .quiet _ (by simp [joinedAgain_not_collision])
  · refine .append _ ?_ fun _ => .inl rfl
    rw [List.filter_append]
    by_cases isTaken : table.relation.qualifier ∈ plan.qualifiers <;>
      simp [isTaken, tableEntry, Entry.collision, Entry.appended, Event.isCollision]

end Plan

/-! ## Warnings of a run -/

namespace Run

theorem kept_warns (root : Table Term) :
    Kept fun run => run.Recorded ∧ (Plan.ofRoot root).Warns run.log run.plan where
  chain before joined :=
    ⟨kept_recorded.chain before.1 joined,
      before.2.trans (before.1.consistent.warns_joinChain joined)⟩
  table before joined :=
    ⟨kept_recorded.table before.1 joined, before.2.trans (Plan.warns_joinTable joined)⟩

theorem warns (root : Table Term) (operations : List Operation) :
    (Plan.ofRoot root).Warns (of root operations).log (of root operations).plan :=
  ((kept_warns root).of ⟨recorded_start root, .quiet _ rfl⟩ operations).2

/-- The warnings in the log are those about the colliding entries of the
plan, in order. -/
theorem warnings_eq (root : Table Term) (operations : List Operation) :
    (of root operations).log.filter Event.isCollision =
      (of root operations).plan.colliding.map Plan.Entry.collision := by
  obtain ⟨added, colliding, warnings, -⟩ := warns root operations
  rw [warnings, colliding]
  rfl

/-- Entries that collide are warned about, and no others are: the warnings
of a run are those about its colliding entries, one for each and in order,
and every operation warns about the colliding entries that it adds itself.
The entry of a hop that was given no alias never collides, and without a
warning all qualifiers differ. -/
theorem collisions_logged (root : Table Term) (operations : List Operation) :
    (of root operations).log.filter Event.isCollision =
      (of root operations).plan.colliding.map Plan.Entry.collision ∧
    (∀ operation,
      ((of root operations).next operation).plan.colliding.map Plan.Entry.collision =
        (of root operations).plan.colliding.map Plan.Entry.collision ++
          (operation.perform (of root operations).plan).events.filter Event.isCollision) ∧
    (∀ entry ∈ (of root operations).plan.colliding,
      entry.path = [] ∨ entry.key.aliasName.isSome) ∧
    ((of root operations).log.filter Event.isCollision = [] →
      (of root operations).plan.qualifiers.Nodup) := by
  have warnings := warnings_eq root operations
  refine ⟨warnings, ?_, ?_, ?_⟩
  · intro operation
    rw [← warnings, ← of_concat, ← warnings_eq, of_concat, ← List.filter_append]
    rfl
  · obtain ⟨added, colliding, -, chosen⟩ := warns root operations
    intro entry isColliding
    rw [colliding] at isColliding
    exact chosen entry isColliding
  · intro noWarning
    rw [warnings, List.map_eq_nil_iff] at noWarning
    exact (Plan.colliding_eq_nil_iff _).1 noWarning

/-- A manager under the name of the root collides with it. -/
example :
    (of Staff.employees
        [.joinChain (Staff.manager.mapTarget (·.withAlias "employees"))]).log.filter
          Event.isCollision =
      [.aliasCollides "employees" "manager"] := by
  rfl

end Run

end Joinery
