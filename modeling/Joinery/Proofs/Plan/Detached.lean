import Joinery.Proofs.Plan.Aliasing
import Joinery.Proofs.Plan.FreeAlias
import Joinery.Proofs.Plan.LoweringOrder
import Joinery.Proofs.Plan.Stability

/-!
Contract: planned expressions against detached ones.

A detached expression qualifies a reference by the relation of its own
context, a planned one by the relation that joining the context gave. These
are the same for a table, and for a chain that has an alias chosen for its
last hop. A chain without one can lead to an entry that was aliased
automatically, and only then do the qualifiers differ: an automatic alias is
never the name of the table that it stands for.

Owns: the names of entries, and what joining gives in terms of contexts.

Does not own: when an automatic alias is assigned.
-/

namespace Joinery

open Query (Chain Context Event Hop Table Term)
open Sql (Expr Relation)

namespace Plan

/-! ## Names of entries -/

theorem relation_ext {first second : Relation} (sameTable : first.table = second.table)
    (sameAlias : first.aliasName = second.aliasName) : first = second := by
  cases first
  cases second
  cases sameTable
  cases sameAlias
  rfl

/-- The alias of an entry is the one that was chosen for it, or an automatic
one where none was chosen. The latter differs from the table's name, which
was taken. -/
inductive Entry.Named (entry : Entry) : Prop where
  | chosen (asChosen : entry.relation.aliasName = entry.key.aliasName)
  | automatic {aliasName : String} (noneChosen : entry.key.aliasName = none)
      (assigned : entry.relation.aliasName = some aliasName)
      (differs : aliasName ≠ entry.relation.table.name)

namespace Entry.Named

variable {entry : Entry} (named : entry.Named)
include named

/-- An entry has the relation of its key where that has an alias. -/
theorem relation_eq {relation : Relation} (table : entry.key.table = relation.table)
    (aliased : entry.key.aliasName = relation.aliasName) (isChosen : relation.aliasName.isSome) :
    entry.relation = relation := by
  apply relation_ext ((table_key entry).symm.trans table)
  cases named with
  | chosen asChosen => exact asChosen.trans aliased
  | automatic noneChosen =>
      rw [← aliased, noneChosen] at isChosen
      cases isChosen

/-- Where no alias was chosen, an automatic one shows in the qualifier. -/
theorem qualifier_ne_iff (noneChosen : entry.key.aliasName = none) :
    entry.relation.qualifier ≠ entry.relation.table.name ↔ entry.isAutoAliased = true := by
  unfold Relation.qualifier isAutoAliased
  rw [noneChosen, bne_iff_ne]
  cases named with
  | chosen asChosen => simp [asChosen, noneChosen]
  | automatic _ assigned differs => simp [assigned, differs]

end Entry.Named

/-- Every entry is named as chosen or automatically. -/
def Named (plan : Plan) : Prop :=
  ∀ entry ∈ plan.entries, entry.Named

namespace Walk

variable {plan : Plan} {walk : Walk} {hop : Hop Term}

theorem named_newEntry (plan : Plan) (walk : Walk) (hop : Hop Term) :
    (walk.newEntry plan hop).Named := by
  have chosen : (walk.newEntry plan hop).key.aliasName = hop.table.relation.aliasName := by
    rw [key_newEntry]
    rfl
  have given : (walk.newEntry plan hop).relation =
      (relationFor (walk.arrived plan).qualifiers hop walk.owner).1 := rfl
  obtain ⟨-, choice⟩ | ⟨-, -, choice⟩ | ⟨isTaken, noAlias, choice⟩ :=
    relationFor_cases (walk.arrived plan).qualifiers hop walk.owner
  · exact .chosen (by rw [chosen, given, choice])
  · exact .chosen (by rw [chosen, given, choice])
  · refine .automatic (chosen.trans noAlias) (by rw [given, choice]) ?_
    rw [given, choice]
    intro same
    -- Without an alias the table's name is the qualifier that was taken.
    have tableName : hop.table.relation.qualifier = hop.table.relation.table.name := by
      rw [Relation.qualifier, noAlias]
      rfl
    rw [tableName, ← same] at isTaken
    exact freeAlias_not_mem _ _ isTaken

theorem named_step (named : (walk.arrived plan).Named) (hop : Hop Term) :
    ((walk.step plan hop).arrived plan).Named := by
  unfold step
  split
  case h_1 => exact named
  case h_2 =>
    rw [arrived_stage]
    intro entry isEntry
    rcases List.mem_append.1 isEntry with isOld | isNew
    · exact named entry isOld
    · obtain rfl := List.mem_singleton.1 isNew
      exact named_newEntry plan walk hop

end Walk

theorem Named.walk {plan : Plan} (named : plan.Named) (hops : List (Hop Term)) :
    ((plan.walk hops).arrived plan).Named := by
  induction hops using List.reverseRecOn with
  | nil => exact named
  | append_singleton hops hop inductionHypothesis =>
      rw [walk_concat]
      exact Walk.named_step inductionHypothesis hop

/-! ## What joining gives -/

/-- The relation that a plan holds for a context: the context's own, but the
one of its entry for a chain without an alias on its last hop. That one has
another qualifier exactly if the entry was aliased automatically. -/
inductive Holds (plan : Plan) : Context Term → Relation → Prop where
  | table (table : Table Term) : Holds plan (.table table) table.relation
  | aliased (chain : Chain Term) (isChosen : chain.target.relation.aliasName.isSome) :
      Holds plan (.chain chain) chain.target.relation
  | unaliased (chain : Chain Term) {entry : Entry}
      (noneChosen : chain.target.relation.aliasName = none) (isEntry : entry ∈ plan.entries)
      (hasKey : entry.key = keyOf (.chain chain))
      (differs_iff : entry.relation.qualifier ≠ chain.target.relation.qualifier ↔
        entry.isAutoAliased = true) :
      Holds plan (.chain chain) entry.relation

theorem holds_chain {plan : Plan} (named : plan.Named) {chain : Chain Term} {entry : Entry}
    (isEntry : entry ∈ plan.entries) (hasKey : entry.key = keyOf (.chain chain)) :
    plan.Holds (.chain chain) entry.relation := by
  have sameTable : entry.key.table = chain.target.relation.table := by
    rw [hasKey]
    rfl
  have sameAlias : entry.key.aliasName = chain.target.relation.aliasName := by
    rw [hasKey]
    rfl
  cases chosen : chain.target.relation.aliasName with
  | some aliasName =>
      have isChosen : chain.target.relation.aliasName.isSome := by simp [chosen]
      rw [(named entry isEntry).relation_eq sameTable sameAlias isChosen]
      exact .aliased chain isChosen
  | none =>
      refine .unaliased chain chosen isEntry hasKey ?_
      have tableName : chain.target.relation.qualifier = entry.relation.table.name := by
        rw [Relation.qualifier, chosen, ← sameTable, table_key]
        rfl
      rw [tableName]
      exact (named entry isEntry).qualifier_ne_iff (sameAlias.trans chosen)

/-- Contexts of which every chain has an alias on its last hop are given their
own relations. -/
theorem eq_map_relation_of_holds {plan : Plan} {contexts : List (Context Term)}
    {relations : List Relation} (holds : List.Forall₂ plan.Holds contexts relations)
    (allChosen : ∀ chain, .chain chain ∈ contexts → chain.target.relation.aliasName.isSome) :
    relations = contexts.map Context.relation := by
  induction holds with
  | nil => rfl
  | cons first _ inductionHypothesis =>
      rw [List.map_cons, inductionHypothesis fun chain member =>
        allChosen chain (List.mem_cons_of_mem _ member)]
      congr 1
      cases first with
      | table table => rfl
      | aliased chain => rfl
      | unaliased chain noneChosen =>
          have isChosen := allChosen chain List.mem_cons_self
          rw [noneChosen] at isChosen
          cases isChosen

/-- An entry without a path has the relation of its key. -/
theorem relation_eq_of_key_table {entry : Entry} {table : Table Term}
    (hasKey : entry.key = keyOf (.table table)) : entry.relation = table.relation := by
  have noPath : entry.path = [] := by
    rw [← path_key, hasKey]
    rfl
  have ownKey : entry.key = .of entry.relation [] := by simp [Entry.key, noPath]
  rw [ownKey] at hasKey
  exact relation_ext (congrArg Key.table hasKey) (congrArg Key.aliasName hasKey)

end Plan

namespace Planning

variable {plan middle after : Plan} {relation : Relation} {events : List Event}

theorem holds_joinContext (consistent : plan.Consistent) {context : Context Term}
    (joined : joinContext context plan = ⟨.ok relation, middle, events⟩)
    (grows : middle.Grows after) (named : after.Named) : after.Holds context relation := by
  cases context with
  | chain chain =>
      obtain ⟨entry, isEntry, hasKey, rfl⟩ :=
        (consistent.joinChain consistent.keys_eq_eraseDups joined).entry
      exact Plan.holds_chain named (grows.entries.subset isEntry) hasKey
  | table table =>
      obtain ⟨-, ran⟩ | ⟨-, -, ran⟩ | ⟨-, -, -, ran⟩ | ⟨-, -, -, ran⟩ :=
        joinContext_table_cases plan table
      · rw [ran] at joined
        cases joined
        exact .table table
      · rw [ran] at joined
        obtain ⟨entry, -, hasKey, rfl⟩ :=
          (consistent.joinTable consistent.keys_eq_eraseDups joined).entry
        rw [Plan.relation_eq_of_key_table hasKey]
        exact .table table
      · rw [ran] at joined
        cases joined
        exact .table table
      · rw [ran] at joined
        cases joined

theorem holds_joinAll (consistent : plan.Consistent) {contexts : List (Context Term)}
    {relations : List Relation}
    (joined : joinAll contexts plan = ⟨.ok relations, after, events⟩) (named : after.Named) :
    List.Forall₂ after.Holds contexts relations := by
  induction contexts generalizing plan relations events with
  | nil =>
      cases joined
      exact .nil
  | cons context others inductionHypothesis =>
      obtain ⟨relation, further, middle, _, _, first, second, rfl⟩ := joinAll_cons_eq_ok joined
      exact .cons (holds_joinContext consistent first (grows_of_joinAll second) named)
        (inductionHypothesis (consistent_joinContext consistent first) second)

end Planning

namespace Run

theorem kept_named : Kept fun run => run.plan.Named where
  chain before joined := by
    obtain ⟨-, rfl, -⟩ := Planning.joinChain_eq_ok joined
    exact Plan.Named.walk before _
  table {run table relation after events} before joined := by
    obtain ⟨condition, -, ⟨-, -, -, rfl, -⟩ | ⟨-, -, rfl, -⟩⟩ := Planning.joinTable_eq_ok joined
    · exact before
    · intro entry isEntry
      rcases List.mem_append.1 isEntry with isOld | isNew
      · exact before entry isOld
      · obtain rfl := List.mem_singleton.1 isNew
        exact .chosen rfl

theorem named (root : Table Term) (operations : List Operation) :
    (of root operations).plan.Named :=
  kept_named.of (by simp [start, Plan.ofRoot, Plan.Named]) operations

/-- A term that is lowered in a run has the expression that it has without a
plan, but for the qualifiers of chains without an alias on their last hop,
and these differ exactly where the entry of the chain was aliased
automatically. If all chains of the term have such an alias, the expressions
are the same, whatever is in the plan. -/
theorem lowered_as_detached (root : Table Term) (operations : List Operation) {term : Term}
    {expr : Expr} {after : Plan} {events : List Event}
    (lowered : Planning.lower term (of root operations).plan = ⟨.ok expr, after, events⟩) :
    (∃ relations, term.Filled relations expr ∧
      term.Filled (term.contexts.map Context.relation) term.detached ∧
      List.Forall₂ after.Holds term.contexts relations) ∧
    ((∀ chain, .chain chain ∈ term.contexts → chain.target.relation.aliasName.isSome) →
      expr = term.detached) := by
  have named : after.Named := by
    have reached : (of root (operations ++ [.lower term])).plan = after := by
      rw [of_concat, plan_next, Operation.perform, Planning.plan_bind_pure, lowered]
    exact reached ▸ Run.named root (operations ++ [.lower term])
  rw [Planning.lower_eq] at lowered
  obtain ⟨relations, _, _, _, joined, given, -⟩ := Planning.bind_eq_ok lowered
  cases given
  have holds := Planning.holds_joinAll (recorded root operations).consistent joined named
  refine ⟨⟨relations, term.filled_fill relations (Planning.length_of_joinAll joined), ?_, holds⟩,
    ?_⟩
  · rw [Term.detached_eq_fill]
    exact term.filled_fill _ (List.length_map _)
  · intro allChosen
    rw [Plan.eq_map_relation_of_holds holds allChosen, ← Term.detached_eq_fill]

end Run

namespace Staff

/-- The name of the boss. -/
def bossName : Term :=
  .column ⟨.chain boss, "name"⟩

/-- Another table of the boss's alias. -/
def otherBoss : Table Term :=
  (employees.withAlias "boss").on (.sql "TRUE")

/-- The alias of the boss is kept where it collides with another one. -/
theorem sameName_as_detached :
    (∃ expr after events,
      Planning.lower sameName (Run.of employees []).plan = ⟨.ok expr, after, events⟩ ∧
      ∃ relations, sameName.Filled relations expr ∧
        sameName.Filled (sameName.contexts.map Context.relation) sameName.detached ∧
        List.Forall₂ after.Holds sameName.contexts relations) ∧
    ∃ expr after events,
      Planning.lower bossName (Run.of employees [.joinTable otherBoss]).plan =
        ⟨.ok expr, after, events⟩ ∧
      expr = bossName.detached := by
  have allChosen : ∀ chain, .chain chain ∈ bossName.contexts →
      chain.target.relation.aliasName.isSome := by
    intro chain member
    cases List.mem_singleton.1 member
    rfl
  obtain ⟨_, _, _, sameNameLowered⟩ : ∃ expr after events,
      Planning.lower sameName (Run.of employees []).plan = ⟨.ok expr, after, events⟩ :=
    ⟨_, _, _, rfl⟩
  obtain ⟨_, _, _, bossNameLowered⟩ : ∃ expr after events,
      Planning.lower bossName (Run.of employees [.joinTable otherBoss]).plan =
        ⟨.ok expr, after, events⟩ := ⟨_, _, _, rfl⟩
  exact ⟨⟨_, _, _, sameNameLowered, (Run.lowered_as_detached _ _ sameNameLowered).1⟩,
    _, _, _, bossNameLowered, (Run.lowered_as_detached _ _ bossNameLowered).2 allChosen⟩

/-- The manager has an automatic alias in a plan, the boss the chosen one. -/
example :
    (Planning.lower sameName (Run.of employees []).plan).result =
        .ok (.binary .eq (.qualified "manager_employees" "name") (.qualified "boss" "name")) ∧
      sameName.detached =
        .binary .eq (.qualified "employees" "name") (.qualified "boss" "name") :=
  ⟨rfl, rfl⟩

end Staff

end Joinery
