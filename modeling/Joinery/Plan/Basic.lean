import Joinery.Query.Term
import Joinery.Query.Event
import Joinery.Query.Error

/-!
Contract: join plans.

A plan is a root table with the relations joined to it, in the order in
which they are joined. Every entry is known by a key: its table, the alias
chosen for it, and its path from the root. The index gives the position of
the entry of each key. Plans only grow: entries are added at the end and
never change.

Owns: keys, entries, the index, and adding to a plan.

Does not own: what is added when a chain or a table is joined, and the choice of
aliases.
-/

namespace Joinery

open Query (Segment Table Term)
open Sql (Expr JoinKind Relation TableRef)

/-- What distinguishes one join of a plan from another. The path is empty for
tables that are joined explicitly. -/
structure Plan.Key where
  table : TableRef
  aliasName : Option String
  path : List Segment
deriving DecidableEq, Repr

/-- The key of a relation at the end of a path, with its alias as chosen. -/
def Plan.Key.of (relation : Relation) (path : List Segment) : Key :=
  ⟨relation.table, relation.aliasName, path⟩

/-- A joined relation. Its alias is the one chosen for it, or else one that
was assigned because the table was already in the plan. -/
structure Plan.Entry where
  relation : Relation
  kind : JoinKind
  on : Expr
  path : List Segment

structure Plan where
  root : Table Term
  entries : List Plan.Entry
  index : List (Plan.Key × Nat)

namespace Plan

/-- The plan that joins nothing to its root. -/
def ofRoot (root : Table Term) : Plan :=
  { root, entries := [], index := [] }

/-- The relation that the plan starts from. -/
def base (plan : Plan) : Relation :=
  plan.root.relation

/-- The qualifiers of the base and of all entries, in order. -/
def qualifiers (plan : Plan) : List String :=
  plan.base.qualifier :: plan.entries.map (·.relation.qualifier)

/-- The position of the entry of a key. -/
def position? (plan : Plan) (key : Key) : Option Nat :=
  plan.index.lookup key

/-- The entry of a key. -/
def find? (plan : Plan) (key : Key) : Option Entry :=
  (plan.position? key).bind (plan.entries[·]?)

/-- Adds an entry at the end. -/
def append (plan : Plan) (key : Key) (entry : Entry) : Plan :=
  { plan with
    entries := plan.entries ++ [entry]
    index := (key, plan.entries.length) :: plan.index }

/-- Adds staged entries at the end, in order, each under its key. -/
def commit (plan : Plan) (staged : List (Key × Entry)) : Plan :=
  staged.foldl (fun plan arrival => plan.append arrival.1 arrival.2) plan

/-- The event that an entry was added. -/
def Entry.appended (entry : Entry) : Query.Event :=
  .joinAppended entry.relation.table.name entry.relation.qualifier entry.path entry.kind

/-- The event that an entry is joined again, with some kind and condition. -/
def Entry.joinedAgain (entry : Entry) (kind : JoinKind) (on : Expr) : Query.Event :=
  if entry.kind = kind ∧ (entry.on == on) = true then
    .duplicateSkipped entry.relation.qualifier entry.path
  else .duplicateDiffers entry.relation.qualifier entry.path

/-! ## Laws of adding -/

variable (plan : Plan) (key : Key) (entry : Entry) (staged : List (Key × Entry))

@[simp]
theorem base_append : (plan.append key entry).base = plan.base := rfl

@[simp]
theorem entries_append : (plan.append key entry).entries = plan.entries ++ [entry] := rfl

@[simp]
theorem qualifiers_append :
    (plan.append key entry).qualifiers = plan.qualifiers ++ [entry.relation.qualifier] := by
  simp [qualifiers]

@[simp]
theorem position?_append_self :
    (plan.append key entry).position? key = some plan.entries.length := by
  simp [position?, append]

theorem position?_append_of_ne {other : Key} (different : other ≠ key) :
    (plan.append key entry).position? other = plan.position? other := by
  have isDifferent : (other == key) = false := beq_eq_false_iff_ne.2 different
  simp [position?, append, List.lookup_cons, isDifferent]

/-! ## Laws of adding staged entries -/

@[simp]
theorem commit_nil : plan.commit [] = plan := rfl

theorem commit_concat :
    plan.commit (staged ++ [(key, entry)]) = (plan.commit staged).append key entry := by
  simp [commit, List.foldl_append]

@[simp]
theorem root_commit : (plan.commit staged).root = plan.root := by
  induction staged generalizing plan with
  | nil => rfl
  | cons arrival others inductionHypothesis => exact inductionHypothesis _

@[simp]
theorem base_commit : (plan.commit staged).base = plan.base := by
  simp only [base, root_commit]

@[simp]
theorem entries_commit :
    (plan.commit staged).entries = plan.entries ++ staged.map Prod.snd := by
  induction staged generalizing plan with
  | nil => simp
  | cons arrival others inductionHypothesis =>
      have rest := inductionHypothesis (plan.append arrival.1 arrival.2)
      rw [entries_append] at rest
      simpa [commit] using rest

@[simp]
theorem qualifiers_commit :
    (plan.commit staged).qualifiers =
      plan.qualifiers ++ staged.map (·.2.relation.qualifier) := by
  simp [qualifiers, Function.comp_def]

end Plan

end Joinery
