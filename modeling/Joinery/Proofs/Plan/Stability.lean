import Joinery.Proofs.Plan.FirstTraversal

/-!
Contract: what was joined once is joined again without effect.

An operation is settled on a plan with a result if it gives this result on
every consistent plan that the plan can grow into, and leaves it as it is. A
join that succeeded is settled afterwards, whether it added entries or went
over some: the keys that it traversed stay in the index, and the entry of its
last key keeps the alias that was chosen for it. Lowering is a sequence of
joins, so a term that was lowered is settled as well.

Owns: settled operations, for joins and for lowering.

Does not own: what an operation that failed does when it is tried again.
-/

namespace Joinery

open Query (Chain Context Event Hop Table Term)
open Sql (Expr Relation)

namespace Plan

variable {plan after : Plan}

theorem Grows.keys (grows : plan.Grows after) : plan.keys ⊆ after.keys := by
  intro key member
  obtain ⟨entry, isEntry, hasKey⟩ := mem_keys.1 member
  exact mem_keys.2 ⟨entry, grows.entries.subset isEntry, hasKey⟩

/-- A walk over known keys stages nothing. -/
theorem Consistent.staged_walk_eq_nil (consistent : plan.Consistent) {hops : List (Hop Term)}
    (known : hopKeys [] hops ⊆ plan.keys) : (plan.walk hops).staged = [] := by
  induction hops using List.reverseRecOn with
  | nil => rfl
  | append_singleton hops hop inductionHypothesis =>
      rw [hopKeys_concat, List.nil_append, ← keyTo_walk plan] at known
      have stagedBefore := inductionHypothesis (List.append_subset.1 known).1
      have arrivedBefore : (plan.walk hops).arrived plan = plan := by
        rw [Walk.arrived, stagedBefore, commit_nil]
      have isKnown : (plan.walk hops).keyTo hop ∈ plan.keys :=
        known (List.mem_append_right _ List.mem_cons_self)
      rw [walk_concat]
      obtain ⟨entry, -, -, stepEq⟩ | ⟨isNew, -⟩ := (consistent.valid_walk hops).step_cases hop
      · rw [stepEq]
        exact stagedBefore
      · rw [arrivedBefore] at isNew
        exact absurd isKnown isNew

/-- A walk over known keys stands, after its last hop, at the relation of the
entry that has the key of that hop. -/
theorem Consistent.owner_walk_eq (consistent : plan.Consistent) {chain : Chain Term}
    (known : hopKeys [] chain.hops ⊆ plan.keys) {entry : Entry} (isEntry : entry ∈ plan.entries)
    (hasKey : entry.key = keyOf (.chain chain)) :
    (plan.walk chain.hops).owner = entry.relation := by
  obtain ⟨last, isLast, lastKey, standsAt⟩ := consistent.owner_walk chain.earlier chain.last
  have arrived : (plan.walk chain.hops).arrived plan = plan := by
    rw [Walk.arrived, consistent.staged_walk_eq_nil known, commit_nil]
  have isOld : last ∈ plan.entries := by
    rw [← arrived]
    exact isLast
  have same : last = entry := consistent.eq_of_key_eq isOld isEntry (lastKey.trans hasKey.symm)
  rw [← same, standsAt]
  rfl

end Plan

namespace Planning

variable {plan middle after : Plan} {relation : Relation} {events : List Event}

theorem isRoot_of_grows (grows : plan.Grows after) (table : Table Term) :
    isRoot after table = isRoot plan table := by
  simp only [isRoot, grows.root, grows.base]

/-! ## Settled operations -/

/-- The operation gives the value on every consistent plan that the plan can
grow into, and leaves it as it is. -/
def Settled {α : Type} (plan : Plan) (operation : Planning α) (value : α) : Prop :=
  ∀ later : Plan, later.Consistent → plan.Grows later →
    ∃ events, operation later = ⟨.ok value, later, events⟩

namespace Settled

variable {α β : Type}

theorem give (plan : Plan) (value : α) : Settled plan (give value) value :=
  fun _ _ _ => ⟨[], rfl⟩

theorem grow {operation : Planning α} {value : α} (settled : Settled plan operation value)
    (grows : plan.Grows after) : Settled after operation value :=
  fun later consistent growsOn => settled later consistent (grows.trans growsOn)

theorem bind {operation : Planning α} {next : α → Planning β} {value : α} {result : β}
    (first : Settled plan operation value) (second : Settled plan (next value) result) :
    Settled plan (operation >>= next) result := by
  intro later consistent grows
  obtain ⟨earlier, ran⟩ := first later consistent grows
  obtain ⟨rest, ranOn⟩ := second later consistent grows
  refine ⟨earlier ++ rest, ?_⟩
  rw [bind_of_ok ran, ranOn]

end Settled

/-! ## Joins settle -/

theorem settled_joinChain (consistent : plan.Consistent) {chain : Chain Term}
    (joined : joinChain chain plan = ⟨.ok relation, after, events⟩) :
    Settled after (joinChain chain) relation := by
  have effect := consistent.joinChain consistent.keys_eq_eraseDups joined
  have growing : plan.Grows after := by
    simpa only [joined] using Growing.joinChain chain plan
  intro later laterConsistent grows
  have root : isRoot later chain.root = true := by
    rw [isRoot_of_grows (growing.trans grows)]
    exact isRoot_of_joinChain joined
  have known : Plan.hopKeys [] chain.hops ⊆ later.keys := by
    intro key member
    apply grows.keys
    rw [effect.keys, List.mem_eraseDups]
    exact List.mem_append_right _ member
  -- The walk goes over known keys only, so it stages nothing and stands at
  -- the entry whose relation was given before.
  obtain ⟨entry, isEntry, hasKey, rfl⟩ := effect.entry
  have owner := laterConsistent.owner_walk_eq known (grows.entries.subset isEntry) hasKey
  have staged := laterConsistent.staged_walk_eq_nil known
  rw [joinChain_of_isRoot root, owner, Plan.Walk.arrived, staged]
  exact ⟨_, rfl⟩

theorem settled_joinTable (consistent : plan.Consistent) {table : Table Term}
    (joined : joinTable table plan = ⟨.ok relation, after, events⟩) :
    Settled after (joinTable table) relation := by
  have effect := consistent.joinTable consistent.keys_eq_eraseDups joined
  obtain ⟨condition, declared, -⟩ := joinTable_eq_ok joined
  intro later laterConsistent grows
  obtain ⟨entry, isEntry, hasKey, rfl⟩ := effect.entry
  have found : later.find? (Plan.keyOf (.table table)) = some entry :=
    laterConsistent.find?_eq_some_iff.2 ⟨grows.entries.subset isEntry, hasKey⟩
  exact ⟨_, joinTable_of_find? declared found⟩

/-- The root and a table that is joined already need no join, and they are
that for good. -/
theorem settled_joinContext (consistent : plan.Consistent) {context : Context Term}
    (joined : joinContext context plan = ⟨.ok relation, after, events⟩) :
    Settled after (joinContext context) relation := by
  cases context with
  | chain chain => exact settled_joinChain consistent joined
  | table table =>
      have growing : plan.Grows after := by
        simpa only [joined] using Growing.joinContext (.table table) plan
      intro later laterConsistent grows
      have sameRoot := isRoot_of_grows (growing.trans grows) table
      obtain ⟨root, ran⟩ | ⟨notRoot, conditioned, ran⟩ | ⟨notRoot, unconditioned, isJoined, ran⟩ |
          ⟨-, -, -, ran⟩ := joinContext_table_cases plan table
      · rw [ran] at joined
        cases joined
        refine ⟨[], ?_⟩
        simp only [joinContext, sameRoot, root, if_true]
        rfl
      · rw [ran] at joined
        obtain ⟨again, ranAgain⟩ :=
          settled_joinTable consistent joined later laterConsistent grows
        refine ⟨again, ?_⟩
        simp only [joinContext, sameRoot, notRoot, conditioned, if_true]
        exact ranAgain
      · rw [ran] at joined
        cases joined
        have stillJoined : table.relation ∈ later.entries.map Plan.Entry.relation :=
          (grows.entries.map _).subset isJoined
        refine ⟨[], ?_⟩
        simp only [joinContext, sameRoot, notRoot, unconditioned, stillJoined, if_true]
        rfl
      · rw [ran] at joined
        cases joined

theorem consistent_joinContext (consistent : plan.Consistent) {context : Context Term}
    (joined : joinContext context plan = ⟨.ok relation, after, events⟩) : after.Consistent := by
  cases context with
  | chain chain => exact (consistent.joinChain consistent.keys_eq_eraseDups joined).consistent
  | table table =>
      obtain ⟨-, ran⟩ | ⟨-, -, ran⟩ | ⟨-, -, -, ran⟩ | ⟨-, -, -, ran⟩ :=
        joinContext_table_cases plan table
      · rw [ran] at joined
        cases joined
        exact consistent
      · rw [ran] at joined
        exact (consistent.joinTable consistent.keys_eq_eraseDups joined).consistent
      · rw [ran] at joined
        cases joined
        exact consistent
      · rw [ran] at joined
        cases joined

/-! ## Lowering settles -/

theorem settled_joinAll (consistent : plan.Consistent) {contexts : List (Context Term)}
    {relations : List Relation}
    (joined : joinAll contexts plan = ⟨.ok relations, after, events⟩) :
    Settled after (joinAll contexts) relations := by
  induction contexts generalizing plan relations events with
  | nil =>
      cases joined
      exact .give _ _
  | cons context others inductionHypothesis =>
      obtain ⟨relation, further, middle, _, _, first, second, rfl⟩ := joinAll_cons_eq_ok joined
      have settledFirst := (settled_joinContext consistent first).grow (grows_of_joinAll second)
      have settledRest := inductionHypothesis (consistent_joinContext consistent first) second
      rw [joinAll_cons]
      exact settledFirst.bind (settledRest.bind (.give _ _))

theorem settled_lower (consistent : plan.Consistent) {term : Term} {expr : Expr}
    (lowered : lower term plan = ⟨.ok expr, after, events⟩) :
    Settled after (lower term) expr := by
  rw [lower_eq] at lowered ⊢
  obtain ⟨relations, _, _, _, joined, given, -⟩ := bind_eq_ok lowered
  cases given
  exact (settled_joinAll consistent joined).bind (.give _ _)

end Planning

namespace Run

/-! ## Settled for the rest of a run -/

/-- What a run settles on its way is given again after any further
operations, and the plan stays as it is. -/
theorem given_again {α : Type} {operation : Operation} {planning : Planning α}
    (performed : ∀ plan, (operation.perform plan).plan = (planning plan).plan)
    (settles : ∀ {plan after : Plan} {value : α} {events : List Event}, plan.Consistent →
      planning plan = ⟨.ok value, after, events⟩ → Planning.Settled after planning value)
    (root : Table Term) (before later : List Operation) {value : α}
    (succeeded : (planning (of root before).plan).result = .ok value) :
    (planning (of root (before ++ operation :: later)).plan).result = .ok value ∧
      (planning (of root (before ++ operation :: later)).plan).plan =
        (of root (before ++ operation :: later)).plan := by
  obtain ⟨after, _, ran⟩ := Planning.eq_of_result succeeded
  have grows := grows_of_performed root before later ((performed _).trans (by rw [ran]))
  have settled := settles (recorded root before).consistent ran
  obtain ⟨events', again⟩ :=
    settled _ (recorded root (before ++ operation :: later)).consistent grows
  rw [again]
  exact ⟨rfl, rfl⟩

/-- A term that was lowered in a run is lowered to the same expression after
any further operations, a chain or a conditioned table that was joined is
given the same relation, and neither changes the plan any more. -/
theorem lowered_for_good (root : Table Term) (before later : List Operation) :
    (∀ term expr, (Planning.lower term (of root before).plan).result = .ok expr →
      (Planning.lower term (of root (before ++ .lower term :: later)).plan).result = .ok expr ∧
      (Planning.lower term (of root (before ++ .lower term :: later)).plan).plan =
        (of root (before ++ .lower term :: later)).plan) ∧
    (∀ chain relation, (Planning.joinChain chain (of root before).plan).result = .ok relation →
      (Planning.joinChain chain (of root (before ++ .joinChain chain :: later)).plan).result =
        .ok relation ∧
      (Planning.joinChain chain (of root (before ++ .joinChain chain :: later)).plan).plan =
        (of root (before ++ .joinChain chain :: later)).plan) ∧
    ∀ table relation, (Planning.joinTable table (of root before).plan).result = .ok relation →
      (Planning.joinTable table (of root (before ++ .joinTable table :: later)).plan).result =
        .ok relation ∧
      (Planning.joinTable table (of root (before ++ .joinTable table :: later)).plan).plan =
        (of root (before ++ .joinTable table :: later)).plan := by
  refine ⟨?_, ?_, ?_⟩
  · intro term expr succeeded
    exact given_again (Planning.plan_bind_pure _ _)
      (fun consistent ran => Planning.settled_lower consistent ran) root before later succeeded
  · intro chain relation succeeded
    exact given_again (Planning.plan_bind_pure _ _)
      (fun consistent ran => Planning.settled_joinChain consistent ran) root before later succeeded
  · intro table relation succeeded
    exact given_again (Planning.plan_bind_pure _ _)
      (fun consistent ran => Planning.settled_joinTable consistent ran) root before later succeeded

end Run

namespace Staff

/-- Employees once more, joined on a condition. -/
def colleagues : Table Term :=
  (employees.withAlias "colleagues").on (.sql "TRUE")

/-- The boss is joined before the operation. After it a join fails, and then
another adds an entry. -/
def amid (operation : Operation) : Run :=
  .of employees ([.joinChain boss] ++ operation :: [.joinTable employees, .joinChain director])

/-- The manager keeps the automatic alias, and nothing is joined once more. -/
theorem staff_for_good :
    (∃ expr,
      (Planning.lower sameName (Run.of employees [.joinChain boss]).plan).result = .ok expr ∧
      (Planning.lower sameName (amid (.lower sameName)).plan).result = .ok expr ∧
      (Planning.lower sameName (amid (.lower sameName)).plan).plan =
        (amid (.lower sameName)).plan) ∧
    ((Planning.joinChain manager (Run.of employees [.joinChain boss]).plan).result =
        .ok managerRelation ∧
      (Planning.joinChain manager (amid (.joinChain manager)).plan).result =
        .ok managerRelation ∧
      (Planning.joinChain manager (amid (.joinChain manager)).plan).plan =
        (amid (.joinChain manager)).plan) ∧
    (Planning.joinTable colleagues (Run.of employees [.joinChain boss]).plan).result =
        .ok colleagues.relation ∧
      (Planning.joinTable colleagues (amid (.joinTable colleagues)).plan).result =
        .ok colleagues.relation ∧
      (Planning.joinTable colleagues (amid (.joinTable colleagues)).plan).plan =
        (amid (.joinTable colleagues)).plan := by
  obtain ⟨ofTerm, ofChain, ofTable⟩ := Run.lowered_for_good employees [.joinChain boss]
    [.joinTable employees, .joinChain director]
  have lowered : (Planning.lower sameName (Run.of employees [.joinChain boss]).plan).result =
      .ok (.binary .eq (.qualified "manager_employees" "name") (.qualified "boss" "name")) := rfl
  exact ⟨⟨_, lowered, ofTerm _ _ lowered⟩, ⟨rfl, ofChain _ _ rfl⟩, rfl, ofTable _ _ rfl⟩

end Staff

end Joinery
