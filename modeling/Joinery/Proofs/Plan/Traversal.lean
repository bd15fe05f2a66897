import Joinery.Proofs.Plan.Joins

/-!
Contract: what a successful join traverses and what it does to a plan.

A chain traverses a key for every hop, a table that is joined on its
condition the key with the empty path. The last of these keys is the key of
the source. `Consistent.joinChain` and `Consistent.joinTable` state what a
join does to a consistent plan: the plan stays consistent, each traversed
key that is new is added at the end, in order, and the given relation is
that of the entry under the key of the source.

Owns: traversed keys, and the effect of one join on keys.

Does not own: runs of many joins.
-/

namespace Joinery

open Query (Chain Context Event Hop Segment Table Term)
open Sql (Relation)

namespace Plan

/-! ## Traversed keys -/

/-- The keys of hops that follow a path. -/
def hopKeys (path : List Segment) : List (Hop Term) → List Key
  | [] => []
  | hop :: others =>
      .of hop.table.relation (path ++ [segment hop]) :: hopKeys (path ++ [segment hop]) others

/-- The keys that joining a source traverses, in order. -/
def traversed : Context Term → List Key
  | .chain chain => hopKeys [] chain.hops
  | .table table => [.of table.relation []]

theorem hopKeys_concat (path : List Segment) (hops : List (Hop Term)) (hop : Hop Term) :
    hopKeys path (hops ++ [hop]) =
      hopKeys path hops ++ [.of hop.table.relation (path ++ (hops ++ [hop]).map segment)] := by
  induction hops generalizing path with
  | nil => simp [hopKeys]
  | cons first others inductionHypothesis => simp [hopKeys, inductionHypothesis]

/-- The key of the next hop of a walk along some hops. -/
theorem keyTo_walk (plan : Plan) (hops : List (Hop Term)) (hop : Hop Term) :
    (plan.walk hops).keyTo hop = .of hop.table.relation ((hops ++ [hop]).map segment) := by
  simp [Walk.keyTo, Walk.pathTo, path_walk]

end Plan

/-! ## First occurrences -/

section FirstOccurrences

variable {α : Type} [DecidableEq α] {items : List α} {item : α}

theorem eraseDups_concat_of_mem (isSeen : item ∈ items.eraseDups) :
    (items ++ [item]).eraseDups = items.eraseDups := by
  rw [List.mem_eraseDups] at isSeen
  rw [List.eraseDups_append]
  simp [List.removeAll, isSeen]

theorem eraseDups_concat_of_not_mem (isNew : item ∉ items.eraseDups) :
    (items ++ [item]).eraseDups = items.eraseDups ++ [item] := by
  rw [List.mem_eraseDups] at isNew
  rw [List.eraseDups_append]
  simp [List.removeAll, List.eraseDups_cons, isNew]

theorem eraseDups_eq_self (distinct : items.Nodup) : items.eraseDups = items := by
  induction items using List.reverseRecOn with
  | nil => rfl
  | append_singleton items item inductionHypothesis =>
      obtain ⟨isNew, distinctBefore⟩ :=
        (List.nodup_concat items item).1 (by rwa [List.concat_eq_append])
      have same := inductionHypothesis distinctBefore
      rw [eraseDups_concat_of_not_mem (by rwa [same]), same]

end FirstOccurrences

/-! ## Effect on a consistent plan -/

namespace Plan

variable {plan after : Plan} {relation : Relation} {events : List Event}

/-- A walk adds the new ones of the keys that it traverses. -/
theorem Consistent.keys_walk (consistent : plan.Consistent) {traversals : List Key}
    (recorded : plan.keys = traversals.eraseDups) (hops : List (Hop Term)) :
    ((plan.walk hops).arrived plan).keys = (traversals ++ hopKeys [] hops).eraseDups := by
  induction hops using List.reverseRecOn with
  | nil =>
      rw [hopKeys, List.append_nil]
      exact recorded
  | append_singleton hops hop inductionHypothesis =>
      rw [walk_concat, hopKeys_concat, List.nil_append, ← keyTo_walk plan, ← List.append_assoc]
      obtain ⟨entry, isEntry, hasKey, stepEq⟩ | ⟨isNew, stepEq⟩ :=
        (consistent.valid_walk hops).step_cases hop
      · have isSeen : (plan.walk hops).keyTo hop ∈ ((plan.walk hops).arrived plan).keys :=
          mem_keys.2 ⟨entry, isEntry, hasKey⟩
        rw [inductionHypothesis] at isSeen
        rw [stepEq, Walk.arrived_reuse, inductionHypothesis, eraseDups_concat_of_mem isSeen]
      · rw [inductionHypothesis] at isNew
        rw [stepEq, Walk.arrived_stage, keys_append, Walk.key_newEntry, inductionHypothesis,
          eraseDups_concat_of_not_mem isNew]

/-- A walk over at least one hop stands at the entry of the last of them. -/
theorem Consistent.owner_walk (consistent : plan.Consistent) (hops : List (Hop Term))
    (hop : Hop Term) :
    ∃ entry ∈ ((plan.walk (hops ++ [hop])).arrived plan).entries,
      entry.key = .of hop.table.relation ((hops ++ [hop]).map segment) ∧
      entry.relation = (plan.walk (hops ++ [hop])).owner := by
  obtain ⟨entry, isEntry, hasKey, owner⟩ := (consistent.valid_walk hops).owner_step hop
  rw [walk_concat]
  exact ⟨entry, isEntry, hasKey.trans (keyTo_walk plan hops hop), owner.symm⟩

/-- The keys of a consistent plan are traversals without repetition. -/
theorem Consistent.keys_eq_eraseDups (consistent : plan.Consistent) :
    plan.keys = plan.keys.eraseDups :=
  (eraseDups_eq_self consistent.nodup_keys).symm

/-- Keys of a plan after a join, and the entry of the joined source. -/
structure JoinEffect (traversals : List Key) (source : Context Term) (relation : Relation)
    (after : Plan) : Prop where
  consistent : after.Consistent
  keys : after.keys = (traversals ++ traversed source).eraseDups
  entry : ∃ entry ∈ after.entries, entry.key = keyOf source ∧ entry.relation = relation

theorem Consistent.joinChain (consistent : plan.Consistent) {traversals : List Key}
    (recorded : plan.keys = traversals.eraseDups) {chain : Chain Term}
    (joined : Planning.joinChain chain plan = ⟨.ok relation, after, events⟩) :
    JoinEffect traversals (.chain chain) relation after := by
  obtain ⟨rfl, rfl, -⟩ := Planning.joinChain_eq_ok joined
  exact
    { consistent := (consistent.valid_walk chain.hops).after
      keys := consistent.keys_walk recorded chain.hops
      entry := consistent.owner_walk chain.earlier chain.last }

theorem Consistent.joinTable (consistent : plan.Consistent) {traversals : List Key}
    (recorded : plan.keys = traversals.eraseDups) {table : Table Term}
    (joined : Planning.joinTable table plan = ⟨.ok relation, after, events⟩) :
    JoinEffect traversals (.table table) relation after := by
  obtain ⟨condition, -, ⟨entry, found, rfl, rfl, -⟩ | ⟨notFound, rfl, rfl, -⟩⟩ :=
    Planning.joinTable_eq_ok joined
  · obtain ⟨isEntry, hasKey⟩ := consistent.find?_eq_some_iff.1 found
    have isSeen : keyOf (.table table) ∈ after.keys := mem_keys.2 ⟨entry, isEntry, hasKey⟩
    rw [recorded] at isSeen
    exact
      { consistent
        keys := recorded.trans (eraseDups_concat_of_mem isSeen).symm
        entry := ⟨entry, isEntry, hasKey, rfl⟩ }
  · have isNew := consistent.find?_eq_none_iff.1 notFound
    rw [← key_tableEntry table condition] at isNew ⊢
    refine
      { consistent := consistent.append isNew
        keys := ?_
        entry := ⟨tableEntry table condition, by simp, rfl, rfl⟩ }
    rw [keys_append]
    rw [recorded] at isNew ⊢
    exact (eraseDups_concat_of_not_mem isNew).symm

end Plan

end Joinery
