import Joinery.Proofs.Plan.Walk

/-!
Contract: all that joining a chain, a table or a context can do.

Joining a chain arrives where the walk along its hops does, or fails and
leaves the plan as it is. Joining a table goes over the entry of its key,
adds one under that key, or fails in the same way. A table as a context is
given as it is, joined on its condition, or refused. The modules after this
one reason from these cases and do not open the operations again.

Owns: the key of a source, and the cases of the joins.

Does not own: what the cases mean for a plan.
-/

namespace Joinery

open Query (Chain Context Event Hop Table Term)
open Sql (Relation)

namespace Plan

/-- The key of a source: the table that it leads to, the alias chosen for
it, and the whole path from the root. -/
def keyOf : Context Term → Key
  | .chain chain => .of chain.target.relation (chain.hops.map segment)
  | .table table => .of table.relation []

/-- The entry of a table that is joined on a condition. -/
def tableEntry (table : Table Term) (condition : Term) : Entry :=
  { relation := table.relation
    kind := table.join
    on := condition.detached
    path := [] }

theorem key_tableEntry (table : Table Term) (condition : Term) :
    (tableEntry table condition).key = keyOf (.table table) := rfl

end Plan

namespace Planning

variable {plan after : Plan} {relation : Relation} {error : Query.Error} {events : List Event}

/-! ## Chains -/

theorem joinChain_eq_ok {chain : Chain Term}
    (joined : joinChain chain plan = ⟨.ok relation, after, events⟩) :
    relation = (plan.walk chain.hops).owner ∧
    after = (plan.walk chain.hops).arrived plan ∧
    events = (plan.walk chain.hops).events ++
      (plan.walk chain.hops).staged.map fun arrival => arrival.2.appended := by
  unfold joinChain at joined
  split at joined
  · cases joined
    exact ⟨rfl, rfl, rfl⟩
  · cases joined

/-- A chain that starts at the root is joined along its hops. -/
theorem joinChain_of_isRoot {chain : Chain Term} (root : isRoot plan chain.root = true) :
    joinChain chain plan =
      ⟨.ok (plan.walk chain.hops).owner, (plan.walk chain.hops).arrived plan,
        (plan.walk chain.hops).events ++
          (plan.walk chain.hops).staged.map fun arrival => arrival.2.appended⟩ := by
  simp only [joinChain, root, if_true]
  rfl

theorem isRoot_of_joinChain {chain : Chain Term}
    (joined : joinChain chain plan = ⟨.ok relation, after, events⟩) :
    isRoot plan chain.root = true := by
  unfold joinChain at joined
  split at joined
  · assumption
  · cases joined

theorem joinChain_eq_error {chain : Chain Term}
    (failed : joinChain chain plan = ⟨.error error, after, events⟩) :
    after = plan ∧ events = [] := by
  unfold joinChain at failed
  split at failed
  · cases failed
  · cases failed
    exact ⟨rfl, rfl⟩

/-! ## Tables -/

/-- A table is joined again over the entry of its key, or joined first. -/
theorem joinTable_eq_ok {table : Table Term}
    (joined : joinTable table plan = ⟨.ok relation, after, events⟩) :
    ∃ condition, table.condition = some condition ∧
      ((∃ entry, plan.find? (Plan.keyOf (.table table)) = some entry ∧
        relation = entry.relation ∧ after = plan ∧
        events = [entry.joinedAgain table.join condition.detached]) ∨
      (plan.find? (Plan.keyOf (.table table)) = none ∧
        relation = table.relation ∧
        after = plan.append (Plan.keyOf (.table table)) (Plan.tableEntry table condition) ∧
        events =
          (if table.relation.qualifier ∈ plan.qualifiers then
            [.qualifierReused table.relation.qualifier] else []) ++
          [(Plan.tableEntry table condition).appended])) := by
  unfold joinTable at joined
  cases declared : table.condition with
  | none =>
      rw [declared] at joined
      cases joined
  | some condition =>
      rw [declared] at joined
      dsimp only at joined
      refine ⟨condition, rfl, ?_⟩
      split at joined
      case h_1 entry found =>
        cases joined
        exact .inl ⟨entry, found, rfl, rfl, rfl⟩
      case h_2 notFound =>
        cases joined
        exact .inr ⟨notFound, rfl, rfl, rfl⟩

/-- A conditioned table whose key is known is joined over the entry. -/
theorem joinTable_of_find? {table : Table Term} {condition : Term} {entry : Plan.Entry}
    (declared : table.condition = some condition)
    (found : plan.find? (Plan.keyOf (.table table)) = some entry) :
    joinTable table plan =
      ⟨.ok entry.relation, plan, [entry.joinedAgain table.join condition.detached]⟩ := by
  have atKey : plan.find? (.of table.relation []) = some entry := found
  simp only [joinTable, declared, atKey]

/-- A table with a condition can always be joined. -/
theorem joinTable_of_isSome {table : Table Term} (conditioned : table.condition.isSome)
    (plan : Plan) : ∃ relation, (joinTable table plan).result = .ok relation := by
  obtain ⟨condition, declared⟩ := Option.isSome_iff_exists.1 conditioned
  simp only [joinTable, declared]
  cases plan.find? (.of table.relation []) with
  | some entry => exact ⟨entry.relation, rfl⟩
  | none => exact ⟨table.relation, rfl⟩

theorem joinTable_eq_error {table : Table Term}
    (failed : joinTable table plan = ⟨.error error, after, events⟩) :
    after = plan ∧ events = [] := by
  unfold joinTable at failed
  split at failed
  · cases failed
    exact ⟨rfl, rfl⟩
  · dsimp only at failed
    split at failed <;> cases failed

/-! ## Tables as contexts -/

/-- A table that a term refers to is the root, or is joined on its condition,
or is joined already, or is refused. -/
theorem joinContext_table_cases (plan : Plan) (table : Table Term) :
    (isRoot plan table = true ∧
      joinContext (.table table) plan = give table.relation plan) ∨
    (isRoot plan table = false ∧ table.condition.isSome = true ∧
      joinContext (.table table) plan = joinTable table plan) ∨
    (isRoot plan table = false ∧ table.condition.isSome = false ∧
      table.relation ∈ plan.entries.map (·.relation) ∧
      joinContext (.table table) plan = give table.relation plan) ∨
    (isRoot plan table = false ∧ table.condition.isSome = false ∧
      table.relation ∉ plan.entries.map (·.relation) ∧
      joinContext (.table table) plan =
        fail (.relationNotInPlan table.relation.qualifier) plan) := by
  simp only [joinContext]
  by_cases root : isRoot plan table = true
  · rw [if_pos root]
    exact .inl ⟨root, rfl⟩
  · rw [if_neg root]
    rw [Bool.not_eq_true] at root
    by_cases conditioned : table.condition.isSome = true
    · rw [if_pos conditioned]
      exact .inr (.inl ⟨root, conditioned, rfl⟩)
    · rw [if_neg conditioned]
      rw [Bool.not_eq_true] at conditioned
      by_cases isJoined : table.relation ∈ plan.entries.map (·.relation)
      · rw [if_pos isJoined]
        exact .inr (.inr (.inl ⟨root, conditioned, isJoined, rfl⟩))
      · rw [if_neg isJoined]
        exact .inr (.inr (.inr ⟨root, conditioned, isJoined, rfl⟩))

/-- A context that cannot be joined leaves the plan as it is. -/
theorem joinContext_eq_error {context : Context Term}
    (failed : joinContext context plan = ⟨.error error, after, events⟩) :
    after = plan ∧ events = [] := by
  cases context with
  | chain chain => exact joinChain_eq_error failed
  | table table =>
      obtain ⟨-, ran⟩ | ⟨-, -, ran⟩ | ⟨-, -, -, ran⟩ | ⟨-, -, -, ran⟩ :=
        joinContext_table_cases plan table
      · rw [ran] at failed
        cases failed
      · rw [ran] at failed
        exact joinTable_eq_error failed
      · rw [ran] at failed
        cases failed
      · rw [ran] at failed
        cases failed
        exact ⟨rfl, rfl⟩

theorem relation_eq_base_of_isRoot {table : Table Term} (root : isRoot plan table = true) :
    table.relation = plan.base := by
  simpa [isRoot] using (Bool.and_eq_true_iff.1 root).2

end Planning

end Joinery
