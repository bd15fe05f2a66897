import Joinery.Proofs.Plan.Failures
import Joinery.Proofs.Plan.Parents
import Mathlib.Data.List.Forall2

/-!
Contract: the log tells of every join.

The log of a run has one event for each entry of its plan, in the order of
the entries, that says what was added. A chain that is joined is told hop by
hop: a hop whose key is new to the plan by the event that its entry was added,
any other hop by the event that its entry was there already. The second kind
is written along the way and the first kind at the end, so what is told keeps
the order of the hops within each kind only.

Owns: the events of a log that tell of joins.

Does not own: warnings about qualifiers, and the events of automatic aliases.
-/

namespace Joinery

open Query (Chain Context Directory Error Event Hop Segment Table Term)
open Sql (Relation)

namespace Query.Event

/-- An entry was added. -/
def isAppended : Event → Bool
  | .joinAppended _ _ _ _ => true
  | _ => false

/-- A join was there already. -/
def isDuplicate : Event → Bool
  | .duplicateSkipped _ _ => true
  | .duplicateDiffers _ _ => true
  | _ => false

/-- The event tells of a join. -/
def isJoin (event : Event) : Bool :=
  event.isAppended || event.isDuplicate

theorem isAppended_iff (event : Event) : event.isAppended ↔ event.message = "join appended" := by
  cases event <;> simp [isAppended, message]

theorem isDuplicate_iff (event : Event) :
    event.isDuplicate ↔
      event.message = "duplicate join skipped" ∨
      event.message =
        "duplicate join differs in kind or condition; keeping the first" := by
  cases event <;> simp [isDuplicate, message]

end Query.Event

namespace Plan

/-! ## Events of entries -/

/-- The details of an entry in the log. -/
def Entry.details (entry : Entry) : List (String × String) :=
  [("table", entry.relation.table.name), ("qualifier", entry.relation.qualifier),
    ("path", Query.pathLabel entry.path), ("kind", entry.kind.name)]

theorem isAppended_appended (entry : Entry) : entry.appended.isAppended = true := rfl

theorem isAppended_joinedAgain (entry : Entry) (kind : Sql.JoinKind) (on : Sql.Expr) :
    (entry.joinedAgain kind on).isAppended = false := by
  unfold Entry.joinedAgain
  split <;> rfl

theorem isJoin_joinedAgain (entry : Entry) (kind : Sql.JoinKind) (on : Sql.Expr) :
    (entry.joinedAgain kind on).isJoin = true := by
  unfold Entry.joinedAgain
  split <;> rfl

theorem filter_isAppended_appended (entries : List Entry) :
    (entries.map Entry.appended).filter Event.isAppended = entries.map Entry.appended := by
  simp [List.filter_eq_self, isAppended_appended]

/-- The choice of a relation is not told as a join. -/
theorem filter_isJoin_relationFor (taken : List String) (hop : Hop Term) (owner : Relation) :
    (relationFor taken hop owner).2.filter Event.isJoin = [] := by
  obtain ⟨-, choice⟩ | ⟨-, -, choice⟩ | ⟨-, -, choice⟩ := relationFor_cases taken hop owner <;>
    rw [choice] <;> rfl

theorem filter_isAppended_of_isJoin {events : List Event}
    (noJoin : events.filter Event.isJoin = []) : events.filter Event.isAppended = [] := by
  rw [List.filter_eq_nil_iff] at noJoin ⊢
  intro event member isAppended
  exact noJoin event member (by simp [Event.isJoin, isAppended])

/-! ## What one join tells -/

/-- The event tells how a key was traversed on the way from one plan to
another: its entry was added if the key was new, and was there otherwise. -/
inductive Tells (before after : Plan) (key : Key) : Event → Prop where
  | appended {entry : Entry} (isNew : key ∉ before.keys) (isEntry : entry ∈ after.entries)
      (hasKey : entry.key = key) : Tells before after key entry.appended
  | again {entry : Entry} (isEntry : entry ∈ before.entries) (hasKey : entry.key = key)
      (kind : Sql.JoinKind) (on : Sql.Expr) : Tells before after key (entry.joinedAgain kind on)

variable {plan before after later : Plan} {key : Key} {keys : List Key} {event : Event}
  {events told : List Event}

theorem Tells.grow (grows : after.Grows later) (tells : Tells before after key event) :
    Tells before later key event := by
  cases tells with
  | appended isNew isEntry hasKey => exact .appended isNew (grows.entries.subset isEntry) hasKey
  | again isEntry hasKey kind on => exact .again isEntry hasKey kind on

namespace Walk

/-- What is told of the keys that a walk went over, in their order, so far:
the events of entries that were there are in the log, those of new entries
wait until the staged entries are added. -/
structure Told (plan : Plan) (walk : Walk) (keys : List Key) (told : List Event) : Prop where
  tells : List.Forall₂ (Tells plan (walk.arrived plan)) keys told
  logged : walk.events.filter Event.isJoin = told.filter (!·.isAppended)
  waiting : walk.staged.map (·.2.appended) = told.filter Event.isAppended

variable {walk : Walk} {hop : Hop Term}

theorem Told.reuse (sofar : walk.Told plan keys told) {entry : Entry}
    (isEntry : entry ∈ plan.entries) (hasKey : entry.key = walk.keyTo hop) :
    ∃ event, (walk.reuse hop entry).Told plan (keys ++ [walk.keyTo hop]) (told ++ [event]) := by
  refine ⟨entry.joinedAgain hop.table.join (hopCondition hop walk.owner entry.relation), ?_, ?_, ?_⟩
  · exact List.rel_append sofar.tells (.cons (.again isEntry hasKey _ _) .nil)
  · rw [List.filter_append, ← sofar.logged]
    simp [Walk.reuse, isJoin_joinedAgain, isAppended_joinedAgain]
  · rw [List.filter_append, ← sofar.waiting]
    simp [Walk.reuse, isAppended_joinedAgain]

theorem Told.stage (sofar : walk.Told plan keys told) (isNew : walk.keyTo hop ∉ plan.keys) :
    ∃ event, (walk.stage plan hop).Told plan (keys ++ [walk.keyTo hop]) (told ++ [event]) := by
  have arrives : (walk.stage plan hop).arrived plan =
      (walk.arrived plan).append (walk.newEntry plan hop).key (walk.newEntry plan hop) :=
    arrived_stage
  refine ⟨(walk.newEntry plan hop).appended, ?_, ?_, ?_⟩
  · rw [arrives]
    have grown : List.Forall₂ (Tells plan ((walk.arrived plan).append
        (walk.newEntry plan hop).key (walk.newEntry plan hop))) keys told :=
      sofar.tells.imp fun _ _ tells => tells.grow (.append _ _ _)
    exact List.rel_append grown
      (.cons (.appended isNew (by simp) (key_newEntry plan walk hop)) .nil)
  · rw [List.filter_append, ← sofar.logged]
    simp [Walk.stage, filter_isJoin_relationFor, isAppended_appended]
  · rw [List.filter_append, ← sofar.waiting, Walk.stage, List.map_append, newEntry, taken_eq]
    rfl

/-- The path of a staged entry is no longer than that of the walk, since each
hop makes the path longer. -/
theorem length_path_of_mem_staged (plan : Plan) (hops : List (Hop Term)) :
    ∀ arrival ∈ (plan.walk hops).staged, arrival.2.path.length ≤ hops.length := by
  induction hops using List.reverseRecOn with
  | nil => simp [walk, start]
  | append_singleton hops hop inductionHypothesis =>
      have earlier : ∀ arrival ∈ (plan.walk hops).staged,
          arrival.2.path.length ≤ (hops ++ [hop]).length := by
        intro arrival member
        have bound := inductionHypothesis arrival member
        rw [List.length_append]
        omega
      rw [walk_concat]
      unfold step
      split
      case h_1 => exact earlier
      case h_2 =>
        intro arrival member
        rcases List.mem_append.1 member with isEarlier | isLast
        · exact earlier arrival isEarlier
        · obtain rfl := List.mem_singleton.1 isLast
          simp [entryUnder, pathTo, path_walk]

/-- A chain never comes back to an entry that it staged itself: its paths get
longer with every hop. -/
theorem mem_entries_of_key_eq {hops : List (Hop Term)} {entry : Entry}
    (isEntry : entry ∈ ((plan.walk hops).arrived plan).entries)
    (hasKey : entry.key = (plan.walk hops).keyTo hop) : entry ∈ plan.entries := by
  simp only [arrived, entries_commit, List.mem_append, List.mem_map] at isEntry
  rcases isEntry with inPlan | ⟨arrival, isStaged, rfl⟩
  · exact inPlan
  · have bound := length_path_of_mem_staged plan hops arrival isStaged
    have samePath := congrArg Key.path hasKey
    rw [path_key, keyTo_walk] at samePath
    have longer : arrival.2.path.length = hops.length + 1 := by simp [samePath, Key.of]
    omega

end Walk

theorem Consistent.told_walk (consistent : plan.Consistent) (hops : List (Hop Term)) :
    ∃ told, (plan.walk hops).Told plan (hopKeys [] hops) told := by
  induction hops using List.reverseRecOn with
  | nil => exact ⟨[], .nil, rfl, rfl⟩
  | append_singleton hops hop inductionHypothesis =>
      obtain ⟨told, sofar⟩ := inductionHypothesis
      rw [walk_concat, hopKeys_concat, List.nil_append, ← keyTo_walk plan]
      obtain ⟨entry, isEntry, hasKey, stepEq⟩ | ⟨isNew, stepEq⟩ :=
        (consistent.valid_walk hops).step_cases hop
      · rw [stepEq]
        obtain ⟨event, longer⟩ := sofar.reuse (Walk.mem_entries_of_key_eq isEntry hasKey) hasKey
        exact ⟨_, longer⟩
      · rw [stepEq]
        have newToPlan : (plan.walk hops).keyTo hop ∉ plan.keys := by
          intro inPlan
          obtain ⟨entry, isEntry, hasKey⟩ := mem_keys.1 inPlan
          exact isNew (mem_keys.2 ⟨entry, (Grows.commit plan _).entries.subset isEntry, hasKey⟩)
        obtain ⟨event, longer⟩ := sofar.stage newToPlan
        exact ⟨_, longer⟩

variable {relation : Relation}

/-- A chain tells of each of its hops once: of those whose entry was there
already first, and of those that were added after them. -/
theorem Consistent.tells_joinChain (consistent : plan.Consistent) {chain : Chain Term}
    (joined : Planning.joinChain chain plan = ⟨.ok relation, after, events⟩) :
    ∃ told, List.Forall₂ (Tells plan after) (hopKeys [] chain.hops) told ∧
      events.filter Event.isJoin =
        told.filter (!·.isAppended) ++ told.filter Event.isAppended := by
  obtain ⟨-, rfl, rfl⟩ := Planning.joinChain_eq_ok joined
  obtain ⟨told, sofar⟩ := consistent.told_walk chain.hops
  refine ⟨told, sofar.tells, ?_⟩
  have allTold : (told.filter Event.isAppended).filter Event.isJoin =
      told.filter Event.isAppended := by
    rw [List.filter_filter]
    apply List.filter_congr
    intro event _
    cases isAppended : event.isAppended <;> simp [Event.isJoin, isAppended]
  rw [List.filter_append, sofar.logged, sofar.waiting, allTold]

theorem Consistent.length_joinChain (consistent : plan.Consistent) {chain : Chain Term}
    (joined : Planning.joinChain chain plan = ⟨.ok relation, after, events⟩) :
    (events.filter Event.isJoin).length = chain.hops.length := by
  obtain ⟨told, tells, logged⟩ := consistent.tells_joinChain joined
  have oneEach : told.length = chain.hops.length := by
    rw [← tells.length_eq, length_hopKeys]
  rw [logged, ← oneEach, List.length_append, Nat.add_comm]
  exact (List.length_eq_length_filter_add Event.isAppended).symm

theorem length_joinTable {table : Table Term}
    (joined : Planning.joinTable table plan = ⟨.ok relation, after, events⟩) :
    (events.filter Event.isJoin).length = 1 := by
  obtain ⟨condition, -, ⟨entry, -, -, -, rfl⟩ | ⟨-, -, -, rfl⟩⟩ := Planning.joinTable_eq_ok joined
  · simp [isJoin_joinedAgain]
  · split <;> simp [Entry.appended, Event.isJoin, Event.isAppended, Event.isDuplicate]

/-! ## Additions -/

/-- The events are those of the entries that are added on the way from one
plan to another, in order. -/
def Appends (before : Plan) (events : List Event) (after : Plan) : Prop :=
  ∃ added, after.entries = before.entries ++ added ∧
    events.filter Event.isAppended = added.map Entry.appended

theorem appends_joinChain {chain : Chain Term}
    (joined : Planning.joinChain chain plan = ⟨.ok relation, after, events⟩) :
    plan.Appends events after := by
  obtain ⟨-, rfl, rfl⟩ := Planning.joinChain_eq_ok joined
  refine ⟨(plan.walk chain.hops).staged.map Prod.snd, by simp [Walk.arrived], ?_⟩
  have along : ∀ hops, (plan.walk hops).events.filter Event.isAppended = [] := by
    intro hops
    induction hops using List.reverseRecOn with
    | nil => rfl
    | append_singleton hops hop inductionHypothesis =>
        rw [walk_concat]
        unfold Walk.step
        split
        case h_1 => simp [Walk.reuse, inductionHypothesis, isAppended_joinedAgain]
        case h_2 =>
          have quiet := filter_isAppended_of_isJoin
            (filter_isJoin_relationFor ((plan.walk hops).taken plan) hop (plan.walk hops).owner)
          rw [Walk.stage, List.filter_append, inductionHypothesis, quiet, List.append_nil]
  rw [List.filter_append, along, List.nil_append, ← filter_isAppended_appended, List.map_map]
  rfl

theorem appends_joinTable {table : Table Term}
    (joined : Planning.joinTable table plan = ⟨.ok relation, after, events⟩) :
    plan.Appends events after := by
  obtain ⟨condition, -, ⟨entry, -, -, rfl, rfl⟩ | ⟨-, -, rfl, rfl⟩⟩ :=
    Planning.joinTable_eq_ok joined
  · exact ⟨[], by simp, by simp [isAppended_joinedAgain]⟩
  · refine ⟨[tableEntry table condition], rfl, ?_⟩
    split <;> rfl

theorem Appends.trans {earlier : List Event} (first : before.Appends earlier after)
    (second : after.Appends events later) : before.Appends (earlier ++ events) later := by
  obtain ⟨added, entries, appended⟩ := first
  obtain ⟨added', entries', appended'⟩ := second
  exact ⟨added ++ added', by rw [entries', entries, List.append_assoc],
    by rw [List.filter_append, appended, appended', List.map_append]⟩

end Plan

/-! ## The log of a run -/

namespace Run

/-- The additions in the log are those of the entries, and the log tells of
as many joins as keys were traversed. -/
theorem kept_told (root : Table Term) :
    Kept fun run => run.Recorded ∧ (Plan.ofRoot root).Appends run.log run.plan ∧
      (run.log.filter Event.isJoin).length = run.traversals.length where
  chain before joined := by
    obtain ⟨recorded, appends, count⟩ := before
    refine ⟨kept_recorded.chain recorded joined, appends.trans (Plan.appends_joinChain joined), ?_⟩
    have more := recorded.consistent.length_joinChain joined
    simp [traversals, List.filter_append, count, more, Plan.traversed, Plan.length_hopKeys]
  table before joined := by
    obtain ⟨recorded, appends, count⟩ := before
    refine ⟨kept_recorded.table recorded joined, appends.trans (Plan.appends_joinTable joined), ?_⟩
    have more := Plan.length_joinTable joined
    simp [traversals, List.filter_append, count, more, Plan.traversed]

theorem told (root : Table Term) (operations : List Operation) :
    (Plan.ofRoot root).Appends (of root operations).log (of root operations).plan ∧
      ((of root operations).log.filter Event.isJoin).length =
        (of root operations).traversals.length :=
  ((kept_told root).of ⟨recorded_start root, ⟨[], rfl, rfl⟩, rfl⟩ operations).2

/-- The log of a run tells its plan. The events about additions stand one for
one and in order for the entries, with their details. A chain of some hops
that is joined logs one event for each of its hops, about the entry of that
hop, and in all of the log there are as many as hops and tables were joined,
those in lowered terms included. A join that fails tells of none. -/
theorem log_tells_plan (root : Table Term) (operations : List Operation) :
    (((of root operations).log.filter Event.isAppended).map fun event =>
        (event.level, event.message, event.fields)) =
      ((of root operations).plan.entries.map fun entry =>
        (.debug, "join appended", entry.details)) ∧
    ((of root operations).log.filter Event.isJoin).length =
      (of root operations).traversals.length ∧
    (∀ chain relation after events,
      Planning.joinChain chain (of root operations).plan = ⟨.ok relation, after, events⟩ →
      (events.filter Event.isJoin).length = chain.hops.length ∧
      ∃ told, (events.filter Event.isJoin).Perm told ∧
        List.Forall₂ (Plan.Tells (of root operations).plan after) (Plan.hopKeys [] chain.hops)
          told) ∧
    (∀ chain error after events,
      Planning.joinChain chain (of root operations).plan = ⟨.error error, after, events⟩ →
      events.filter Event.isJoin = []) ∧
    (∀ directory names error after events,
      Planning.joinPath directory names (of root operations).plan =
        ⟨.error error, after, events⟩ →
      events.filter Event.isJoin = []) ∧
    ∀ table error after events,
      Planning.joinTable table (of root operations).plan = ⟨.error error, after, events⟩ →
      events.filter Event.isJoin = [] := by
  have consistent := (recorded root operations).consistent
  obtain ⟨⟨added, entries, appended⟩, count⟩ := told root operations
  have silent {α : Type} {operation : Planning α} (allOrNothing : Planning.AllOrNothing operation)
      {error : Error} {after : Plan} {events : List Event}
      (failed : operation (of root operations).plan = ⟨.error error, after, events⟩) :
      events.filter Event.isJoin = [] := by
    have ran := allOrNothing (of root operations).plan error (by rw [failed])
    rw [failed] at ran
    cases ran
    rfl
  refine ⟨?_, count, ?_, ?_, ?_, ?_⟩
  · have allAdded : (of root operations).plan.entries = added := entries
    rw [appended, allAdded, List.map_map]
    rfl
  · intro chain relation after events joined
    refine ⟨consistent.length_joinChain joined, ?_⟩
    obtain ⟨told, tells, logged⟩ := consistent.tells_joinChain joined
    refine ⟨told, ?_, tells⟩
    rw [logged]
    exact List.perm_append_comm.trans (List.filter_append_perm Event.isAppended told)
  · intro chain error after events failed
    exact silent (Planning.allOrNothing_joinChain chain) failed
  · intro directory names error after events failed
    exact silent (Planning.allOrNothing_joinPath directory names) failed
  · intro table error after events failed
    exact silent (Planning.allOrNothing_joinTable table) failed

/-- Joining the manager again is told, and joining without a condition fails
without being told. -/
theorem told_of_staff :
    (∃ relation after events,
      Planning.joinChain Staff.manager (of Staff.employees [.joinChain Staff.manager]).plan =
        ⟨.ok relation, after, events⟩ ∧
      (events.filter Event.isJoin).length = Staff.manager.hops.length) ∧
    ∃ error after events,
      Planning.joinTable Staff.employees (of Staff.employees [.joinChain Staff.manager]).plan =
        ⟨.error error, after, events⟩ ∧
      events.filter Event.isJoin = [] := by
  obtain ⟨-, -, ofChain, -, -, ofTable⟩ :=
    log_tells_plan Staff.employees [.joinChain Staff.manager]
  have refused : Planning.joinTable Staff.employees
      (of Staff.employees [.joinChain Staff.manager]).plan =
        ⟨.error (.missingJoinCondition "employees"),
          (of Staff.employees [.joinChain Staff.manager]).plan, []⟩ := rfl
  exact ⟨⟨_, _, _, rfl, (ofChain _ _ _ _ rfl).1⟩, _, _, _, refused, ofTable _ _ _ _ refused⟩

/-- The manager is joined twice and the boss once: three joins are told, two
of them as additions. -/
example :
    ((of Staff.employees [.joinChain Staff.manager, .lower Staff.sameName]).log.filter
      Event.isJoin).map Event.message =
      ["join appended", "duplicate join skipped", "join appended"] := by
  rfl

end Run

end Joinery
