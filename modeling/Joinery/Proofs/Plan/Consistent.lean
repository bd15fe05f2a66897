import Joinery.Plan.Basic
import Mathlib.Data.List.Nodup

/-!
Contract: what the index of a plan says about its entries.

An entry determines the key it was joined under. A plan is consistent if its
index gives the position of every entry under that key, and nothing else.
No two entries of a consistent plan share a key, and looking a key up finds
the one entry that has it. Adding an entry under a new key keeps a plan
consistent.

Owns: keys of entries, consistency, and look-ups in consistent plans.

Does not own: which plans are consistent. Those that runs of operations lead
to are.
-/

namespace Joinery.Plan

/-- The key that an entry was joined under. A hop has the alias in the last
segment of its path, which is the one chosen for it; the alias of its
relation may be an automatic one. -/
def Entry.key (entry : Entry) : Key :=
  match entry.path.getLast? with
  | some segment => ⟨entry.relation.table, segment.aliasName, entry.path⟩
  | none => .of entry.relation []

theorem path_key (entry : Entry) : entry.key.path = entry.path := by
  unfold Entry.key
  split
  · rfl
  · rename_i isLast
    exact (List.getLast?_eq_none_iff.1 isLast).symm

theorem table_key (entry : Entry) : entry.key.table = entry.relation.table := by
  unfold Entry.key
  split <;> rfl

/-- The keys of all entries, in order. -/
def keys (plan : Plan) : List Key :=
  plan.entries.map Entry.key

/-- The index holds the position of every entry under its key, and nothing
else. -/
structure Consistent (plan : Plan) : Prop where
  position (key : Key) (position : Nat) :
    plan.position? key = some position ↔ plan.keys[position]? = some key
  size : plan.index.length = plan.entries.length

variable {plan : Plan} {key : Key} {entry : Entry}

@[simp]
theorem keys_append (plan : Plan) (key : Key) (entry : Entry) :
    (plan.append key entry).keys = plan.keys ++ [entry.key] := by
  simp [keys]

@[simp]
theorem length_keys (plan : Plan) : plan.keys.length = plan.entries.length := by
  simp [keys]

theorem mem_keys : key ∈ plan.keys ↔ ∃ entry ∈ plan.entries, entry.key = key := by
  simp [keys]

theorem consistent_ofRoot (root : Query.Table Query.Term) : (ofRoot root).Consistent where
  position key position := by simp [ofRoot, position?, keys]
  size := rfl

/-- What a look-up in a list of pairs finds is there under that key. -/
theorem mem_of_lookup {α : Type} {pairs : List (Key × α)} {found : α}
    (isFirst : pairs.lookup key = some found) : (key, found) ∈ pairs := by
  obtain ⟨earlier, later, split, -⟩ := List.lookup_eq_some_iff.1 isFirst
  rw [split]
  exact List.mem_append_right _ List.mem_cons_self

theorem lookup_eq_none {α : Type} {pairs : List (Key × α)}
    (isNew : ∀ pair ∈ pairs, pair.1 ≠ key) : pairs.lookup key = none := by
  rw [List.lookup_eq_none_iff]
  intro pair member
  rw [bne_iff_ne]
  exact (isNew pair member).symm

/-- A look-up finds entries of the plan only, consistent or not. -/
theorem mem_entries_of_find? (found : plan.find? key = some entry) : entry ∈ plan.entries := by
  obtain ⟨position, -, atPosition⟩ := Option.bind_eq_some_iff.1 found
  exact List.mem_of_getElem? atPosition

namespace Consistent

variable (consistent : plan.Consistent)
include consistent

theorem nodup_keys : plan.keys.Nodup := by
  rw [List.nodup_iff_pairwise_ne, List.pairwise_iff_getElem]
  intro i j iBound jBound before same
  have first := (consistent.position _ _).2 (List.getElem?_eq_getElem iBound)
  have second := (consistent.position _ _).2 (List.getElem?_eq_getElem jBound)
  rw [same, second] at first
  have : j = i := Option.some.inj first
  omega

theorem append (fresh : entry.key ∉ plan.keys) :
    (plan.append entry.key entry).Consistent where
  position key position := by
    rw [keys_append]
    -- The new key is indexed by the last position, any other as before.
    by_cases isNew : key = entry.key
    · subst isNew
      rw [position?_append_self, List.getElem?_append]
      by_cases before : position < plan.keys.length
      · have notThere : plan.keys[position]? ≠ some entry.key := fun atPosition =>
          fresh (List.mem_of_getElem? atPosition)
        rw [if_pos before]
        rw [length_keys] at before
        simp only [notThere, Option.some.injEq, iff_false]
        omega
      · rw [if_neg before, length_keys, List.getElem?_singleton]
        rw [length_keys] at before
        grind
    · rw [position?_append_of_ne _ _ _ isNew, consistent.position, List.getElem?_append]
      by_cases before : position < plan.keys.length
      · rw [if_pos before]
      · rw [if_neg before, List.getElem?_eq_none (Nat.le_of_not_lt before)]
        grind
  size := by
    simp [Plan.append, consistent.size]

theorem eq_of_key_eq {other : Entry} (isEntry : entry ∈ plan.entries)
    (otherIsEntry : other ∈ plan.entries) (sameKey : entry.key = other.key) : entry = other :=
  List.inj_on_of_nodup_map consistent.nodup_keys isEntry otherIsEntry sameKey

/-- Looking a key up finds the entry that has it. -/
theorem find?_eq_some_iff :
    plan.find? key = some entry ↔ entry ∈ plan.entries ∧ entry.key = key := by
  constructor
  · intro found
    obtain ⟨position, indexed, atPosition⟩ := Option.bind_eq_some_iff.1 found
    have keyAt := (consistent.position _ _).1 indexed
    rw [keys, List.getElem?_map, atPosition] at keyAt
    exact ⟨List.mem_of_getElem? atPosition, Option.some.inj keyAt⟩
  · rintro ⟨isEntry, rfl⟩
    obtain ⟨position, atPosition⟩ := List.mem_iff_getElem?.1 isEntry
    have keyAt : plan.keys[position]? = some entry.key := by
      rw [keys, List.getElem?_map, atPosition, Option.map_some]
    rw [find?, (consistent.position _ _).2 keyAt, Option.bind_some, atPosition]

theorem find?_eq_none_iff : plan.find? key = none ↔ key ∉ plan.keys := by
  rw [mem_keys, ← not_iff_not, not_not, ← ne_eq, Option.ne_none_iff_exists']
  exact exists_congr fun entry => consistent.find?_eq_some_iff

end Consistent

end Joinery.Plan
