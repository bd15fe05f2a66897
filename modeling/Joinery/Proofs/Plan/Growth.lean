import Joinery.Proofs.Plan.Joins
import Joinery.Proofs.Plan.Leaves

/-!
Contract: operations only add entries to a plan.

A plan grows into another if the root is the same and the entries are the
first ones of the other, unchanged and in the same order. Every operation
makes every plan grow, whether it succeeds or fails. The relation that an
operation gives has a qualifier of the plan afterwards, and keeps it while
the plan grows.

Owns: growth, growth along operations, and where given relations stand.

Does not own: which entries are added.
-/

namespace Joinery

open Query (Chain Context Directory Hop Table Term)
open Sql (Expr Relation)

/-- The plan afterwards has the entries of the plan before, in front and
unchanged. -/
structure Plan.Grows (before after : Plan) : Prop where
  root : after.root = before.root
  entries : before.entries <+: after.entries

namespace Plan.Grows

variable {before middle after : Plan}

theorem refl (plan : Plan) : plan.Grows plan :=
  ⟨rfl, List.prefix_rfl⟩

theorem trans (first : before.Grows middle) (second : middle.Grows after) :
    before.Grows after :=
  ⟨second.root.trans first.root, first.entries.trans second.entries⟩

theorem append (plan : Plan) (key : Key) (entry : Entry) : plan.Grows (plan.append key entry) :=
  ⟨rfl, List.prefix_append _ _⟩

theorem commit (plan : Plan) (staged : List (Key × Entry)) : plan.Grows (plan.commit staged) :=
  ⟨root_commit _ _, by rw [entries_commit]; exact List.prefix_append _ _⟩

theorem base (grows : before.Grows after) : after.base = before.base := by
  simp only [Plan.base, grows.root]

/-- An entry keeps its position. -/
theorem getElem? (grows : before.Grows after) {position : Nat} {entry : Plan.Entry}
    (atPosition : before.entries[position]? = some entry) :
    after.entries[position]? = some entry := by
  obtain ⟨bound, rfl⟩ := List.getElem?_eq_some_iff.1 atPosition
  exact List.prefix_iff_getElem?.1 grows.entries position bound

theorem qualifiers (grows : before.Grows after) : before.qualifiers <+: after.qualifiers := by
  rw [Plan.qualifiers, Plan.qualifiers, grows.base]
  exact (List.prefix_cons_inj _).2 (grows.entries.map _)

theorem qualifier_mem (grows : before.Grows after) {qualifier : String}
    (member : qualifier ∈ before.qualifiers) : qualifier ∈ after.qualifiers :=
  grows.qualifiers.subset member

end Plan.Grows

namespace Planning

/-! ## Growth along operations -/

/-- The operation makes every plan grow. -/
def Growing {α : Type} (operation : Planning α) : Prop :=
  ∀ plan : Plan, plan.Grows (operation plan).plan

namespace Growing

variable {α β : Type}

theorem give (value : α) : Growing (give value) :=
  fun plan => .refl plan

theorem bind {operation : Planning α} {next : α → Planning β} (first : Growing operation)
    (second : ∀ value, Growing (next value)) : Growing (operation >>= next) := by
  intro plan
  have grows := first plan
  rcases ran : operation plan with ⟨result, after, events⟩
  rw [ran] at grows
  cases result with
  | ok value =>
      rw [bind_of_ok ran]
      exact grows.trans (second value after)
  | error error =>
      rw [bind_of_error ran]
      exact grows

theorem joinChain (chain : Chain Term) : Growing (joinChain chain) := by
  intro plan
  rcases ran : Planning.joinChain chain plan with ⟨result, after, events⟩
  cases result with
  | ok relation =>
      obtain ⟨-, rfl, -⟩ := joinChain_eq_ok ran
      exact .commit _ _
  | error error =>
      obtain ⟨rfl, -⟩ := joinChain_eq_error ran
      exact .refl _

theorem joinTable (table : Table Term) : Growing (joinTable table) := by
  intro plan
  rcases ran : Planning.joinTable table plan with ⟨result, after, events⟩
  cases result with
  | ok relation =>
      obtain ⟨_, -, ⟨entry, -, -, rfl, -⟩ | ⟨-, -, rfl, -⟩⟩ := joinTable_eq_ok ran
      · exact .refl _
      · exact .append _ _ _
  | error error =>
      obtain ⟨rfl, -⟩ := joinTable_eq_error ran
      exact .refl _

theorem joinContext (context : Context Term) : Growing (joinContext context) := by
  intro plan
  cases context with
  | chain chain => exact joinChain chain plan
  | table table =>
      obtain ⟨-, ran⟩ | ⟨-, -, ran⟩ | ⟨-, -, -, ran⟩ | ⟨-, -, -, ran⟩ :=
        joinContext_table_cases plan table
      · rw [ran]
        exact .refl plan
      · rw [ran]
        exact joinTable table plan
      · rw [ran]
        exact .refl plan
      · rw [ran]
        exact .refl plan

theorem joinPath (directory : Directory) (names : List String) :
    Growing (joinPath directory names) := by
  intro plan
  unfold Planning.joinPath
  split
  · exact .refl plan
  · exact joinChain _ plan
  · exact .refl plan

theorem joinAll (contexts : List (Context Term)) : Growing (joinAll contexts) := by
  induction contexts with
  | nil => exact give []
  | cons context others inductionHypothesis =>
      rw [joinAll_cons]
      exact bind (joinContext context) fun _ => bind inductionHypothesis fun _ => give _

theorem lower (term : Term) : Growing (lower term) := by
  rw [lower_eq]
  exact bind (joinAll _) fun _ => give _

end Growing

end Planning

/-! ## Given relations -/

namespace Plan

variable {plan : Plan}

theorem Walk.mem_arrived_of_find? {walk : Walk} {key : Key} {entry : Entry}
    (found : walk.find? plan key = some entry) : entry ∈ (walk.arrived plan).entries := by
  simp only [Walk.arrived, entries_commit, List.mem_append, List.mem_map]
  rcases Option.or_eq_some_iff.1 found with inPlan | ⟨-, isStaged⟩
  · exact .inl (mem_entries_of_find? inPlan)
  · exact .inr ⟨(key, entry), mem_of_lookup isStaged, rfl⟩

theorem qualifier_mem_of_mem_entries {entry : Entry} (isEntry : entry ∈ plan.entries) :
    entry.relation.qualifier ∈ plan.qualifiers :=
  List.mem_cons_of_mem _ (List.mem_map_of_mem isEntry)

theorem base_qualifier_mem (plan : Plan) : plan.base.qualifier ∈ plan.qualifiers :=
  List.mem_cons_self

theorem owner_walk_mem (plan : Plan) (hops : List (Hop Term)) :
    (plan.walk hops).owner.qualifier ∈ ((plan.walk hops).arrived plan).qualifiers := by
  induction hops using List.reverseRecOn with
  | nil => exact base_qualifier_mem plan
  | append_singleton hops hop _ =>
      rw [walk_concat, Walk.step]
      split
      case h_1 entry found =>
        exact qualifier_mem_of_mem_entries (Walk.mem_arrived_of_find? found)
      case h_2 =>
        rw [Walk.arrived_stage, qualifiers_append]
        simp [Walk.stage, Walk.newEntry, Walk.entryUnder, Walk.taken_eq]

end Plan

namespace Planning

variable {plan after : Plan} {relation : Relation} {events : List Query.Event}

theorem qualifier_mem_of_joinChain {chain : Chain Term}
    (joined : joinChain chain plan = ⟨.ok relation, after, events⟩) :
    relation.qualifier ∈ after.qualifiers := by
  obtain ⟨rfl, rfl, -⟩ := joinChain_eq_ok joined
  exact plan.owner_walk_mem _

theorem qualifier_mem_of_joinTable {table : Table Term}
    (joined : joinTable table plan = ⟨.ok relation, after, events⟩) :
    relation.qualifier ∈ after.qualifiers := by
  obtain ⟨_, -, ⟨entry, found, rfl, rfl, -⟩ | ⟨-, rfl, rfl, -⟩⟩ := joinTable_eq_ok joined
  · exact Plan.qualifier_mem_of_mem_entries (Plan.mem_entries_of_find? found)
  · simp [Plan.tableEntry]

/-- The relation that joining a context gives is one of the plan. -/
theorem qualifier_mem_of_joinContext {context : Context Term}
    (joined : joinContext context plan = ⟨.ok relation, after, events⟩) :
    relation.qualifier ∈ after.qualifiers := by
  cases context with
  | chain chain => exact qualifier_mem_of_joinChain joined
  | table table =>
      obtain ⟨root, ran⟩ | ⟨-, -, ran⟩ | ⟨-, -, isJoined, ran⟩ | ⟨-, -, -, ran⟩ :=
        joinContext_table_cases plan table
      · rw [ran] at joined
        cases joined
        rw [relation_eq_base_of_isRoot root]
        exact plan.base_qualifier_mem
      · rw [ran] at joined
        exact qualifier_mem_of_joinTable joined
      · rw [ran] at joined
        cases joined
        obtain ⟨entry, isEntry, sameRelation⟩ := List.mem_map.1 isJoined
        rw [← sameRelation]
        exact Plan.qualifier_mem_of_mem_entries isEntry
      · rw [ran] at joined
        cases joined

theorem grows_of_joinAll {contexts : List (Context Term)} {relations : List Relation}
    (joined : joinAll contexts plan = ⟨.ok relations, after, events⟩) : plan.Grows after := by
  simpa only [joined] using Growing.joinAll contexts plan

/-- All relations that joining contexts gives are of the plan in the end. -/
theorem qualifier_mem_of_joinAll {contexts : List (Context Term)} {relations : List Relation}
    (joined : joinAll contexts plan = ⟨.ok relations, after, events⟩) :
    ∀ relation ∈ relations, relation.qualifier ∈ after.qualifiers := by
  induction contexts generalizing plan relations events with
  | nil =>
      cases joined
      simp
  | cons context others inductionHypothesis =>
      obtain ⟨relation, further, middle, _, _, first, second, rfl⟩ := joinAll_cons_eq_ok joined
      have grows := grows_of_joinAll second
      intro given member
      rcases List.mem_cons.1 member with rfl | later
      · exact grows.qualifier_mem (qualifier_mem_of_joinContext first)
      · exact inductionHypothesis second given later

end Planning

end Joinery
