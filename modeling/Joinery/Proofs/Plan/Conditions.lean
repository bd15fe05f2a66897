import Joinery.Proofs.Plan.Parents

/-!
Contract: which condition every entry of a plan was recorded with.

An entry with a path is joined as the hop says that traversed its key first.
An entry without a path is that of the table that was joined first under its
key. So each entry has one first source, and the condition of that source is
the one recorded: a hop's own, else the one declared for its association, or
the table's own. An entry without such a condition is joined on the equality
of keys.

Owns: first tables, and the recorded condition of a key.

Does not own: hops and parents, and the text of conditions.
-/

namespace Joinery

open Query (Chain Context Event Hop Table Term)
open Sql (Expr Relation)

/-! ## Tables joined on their own condition -/

namespace Plan

/-- The table that joining a source puts under its key. A chain puts entries
of hops only. -/
def tables : Context Term → List (Key × Table Term)
  | .chain _ => []
  | .table table => [(keyOf (.table table), table)]

theorem mem_traversed_of_mem_tables {source : Context Term} {place : Key × Table Term}
    (member : place ∈ tables source) : place.1 ∈ traversed source := by
  cases source with
  | chain chain => cases member
  | table table =>
      obtain rfl := List.mem_singleton.1 member
      exact List.mem_singleton_self _

/-- A walk stages entries of hops only. -/
theorem path_ne_nil_of_mem_staged {plan : Plan} {hops : List (Hop Term)} {arrival : Key × Entry}
    (member : arrival ∈ (plan.walk hops).staged) : arrival.2.path ≠ [] := by
  induction hops using List.reverseRecOn with
  | nil => cases member
  | append_singleton hops hop inductionHypothesis =>
      rw [walk_concat, Walk.step] at member
      split at member
      case h_1 => exact inductionHypothesis member
      case h_2 =>
        rcases List.mem_append.1 member with earlier | new
        · exact inductionHypothesis earlier
        · obtain rfl := List.mem_singleton.1 new
          simp [Walk.entryUnder, Walk.pathTo]

/-- Every entry without a path is that of the first table under its key. -/
def Tabled (plan : Plan) (places : List (Key × Table Term)) : Prop :=
  ∀ entry ∈ plan.entries, entry.path = [] →
    ∃ table condition, places.lookup entry.key = some table ∧
      table.condition = some condition ∧ entry = tableEntry table condition

variable {plan : Plan} {places : List (Key × Table Term)}

theorem Tabled.commit (tabled : plan.Tabled places) (hops : List (Hop Term)) :
    ((plan.walk hops).arrived plan).Tabled places := by
  intro entry isEntry noPath
  rw [Walk.arrived, entries_commit] at isEntry
  rcases List.mem_append.1 isEntry with earlier | new
  · exact tabled entry earlier noPath
  · obtain ⟨arrival, isStaged, rfl⟩ := List.mem_map.1 new
    exact absurd noPath (path_ne_nil_of_mem_staged isStaged)

theorem Tabled.continue (tabled : plan.Tabled places) (later : List (Key × Table Term)) :
    plan.Tabled (places ++ later) := by
  intro entry isEntry noPath
  obtain ⟨table, condition, isFirst, declared, same⟩ := tabled entry isEntry noPath
  refine ⟨table, condition, ?_, declared, same⟩
  rw [List.lookup_append, isFirst, Option.some_or]

/-- A table that is joined under a new key is the first one there. -/
theorem Tabled.append (tabled : plan.Tabled places) {table : Table Term} {condition : Term}
    (declared : table.condition = some condition)
    (isNew : ∀ place ∈ places, place.1 ≠ keyOf (.table table)) :
    (plan.append (keyOf (.table table)) (tableEntry table condition)).Tabled
      (places ++ tables (.table table)) := by
  intro entry isEntry noPath
  rw [entries_append] at isEntry
  rcases List.mem_append.1 isEntry with earlier | new
  · exact tabled.continue _ entry earlier noPath
  · obtain rfl := List.mem_singleton.1 new
    refine ⟨table, condition, ?_, declared, rfl⟩
    -- The key is new, so no table before went under it.
    have noneBefore : places.lookup (keyOf (.table table)) = none := lookup_eq_none isNew
    rw [key_tableEntry, List.lookup_append, noneBefore, Option.none_or]
    simp [tables]

end Plan

namespace Run

/-- The tables that the run joined on their own condition, in order, each
under its key. -/
def tables (run : Run) : List (Plan.Key × Table Term) :=
  run.joined.flatMap fun joined => Plan.tables joined.source

/-- The table that was joined first under a key. -/
def firstTable? (run : Run) (key : Plan.Key) : Option (Table Term) :=
  run.tables.lookup key

theorem mem_traversals_of_mem_tables {run : Run} :
    ∀ place ∈ run.tables, place.1 ∈ run.traversals := by
  intro place member
  obtain ⟨joined, isJoined, isPlace⟩ := List.mem_flatMap.1 member
  exact List.mem_flatMap.2 ⟨joined, isJoined, Plan.mem_traversed_of_mem_tables isPlace⟩

theorem kept_tabled : Kept fun run => run.Recorded ∧ run.plan.Tabled run.tables where
  chain {run chain relation after events} before joined := by
    refine ⟨kept_recorded.chain before.1 joined, ?_⟩
    obtain ⟨-, rfl, -⟩ := Planning.joinChain_eq_ok joined
    have tabled := before.2.commit chain.hops
    simpa [tables, Plan.tables] using tabled
  table {run table relation after events} before joined := by
    refine ⟨kept_recorded.table before.1 joined, ?_⟩
    have further : tables ⟨after, run.log ++ events, run.joined ++ [⟨.table table, relation⟩]⟩ =
        run.tables ++ Plan.tables (.table table) := by
      simp [tables]
    rw [further]
    obtain ⟨condition, declared, ⟨-, -, -, rfl, -⟩ | ⟨notFound, -, rfl, -⟩⟩ :=
      Planning.joinTable_eq_ok joined
    · exact before.2.continue _
    · apply before.2.append declared
      intro place member same
      have isNew := before.1.consistent.find?_eq_none_iff.1 notFound
      rw [before.1.keys, List.mem_eraseDups] at isNew
      exact isNew (same ▸ mem_traversals_of_mem_tables place member)

/-- Every entry of a run that has no path is that of the table that was
joined first under its key. -/
theorem tabled (root : Table Term) (operations : List Operation) :
    (of root operations).plan.Tabled (of root operations).tables :=
  (kept_tabled.of ⟨recorded_start root, by simp [start, Plan.ofRoot, Plan.Tabled]⟩
    operations).2

end Run

/-! ## Recorded conditions -/

/-- The condition of a hop: its own, else the one declared for its
association. -/
def Query.Hop.condition? (hop : Hop Term) : Option Term :=
  hop.table.condition.or hop.link.condition

/-- The condition of what was joined first under a key. There is none if that
was a hop on the equality of keys. -/
def Run.condition? (run : Run) (key : Plan.Key) : Option Term :=
  match run.firstHop? key with
  | some hop => hop.condition?
  | none => (run.firstTable? key).bind (·.condition)

namespace Plan

variable {hop : Hop Term} {owner target : Relation} {on : Expr}

/-- A hop is joined on its condition as it is written, or else on its keys. -/
theorem JoinedOn.on_eq (joinedOn : JoinedOn hop owner target on) :
    on = (hop.condition?.map Term.detached).getD (hop.link.keyCondition owner target) := by
  unfold Query.Hop.condition?
  cases joinedOn with
  | chosen own => simp [own]
  | declared noOwn declared => simp [noOwn, declared]
  | belongsTo byKeys kind =>
      simp [byKeys.1, byKeys.2, Query.Link.keyCondition, Query.Link.targetKey,
        Query.Link.ownerKey, kind]
  | has byKeys kind =>
      rcases kind with kind | kind <;>
        simp [byKeys.1, byKeys.2, Query.Link.keyCondition, Query.Link.targetKey,
          Query.Link.ownerKey, kind]

end Plan

namespace Run

variable {root : Table Term} {operations : List Operation}

/-- Every entry is joined on the condition of what was joined first under its
key, as it is written, or else on the equality of keys. -/
theorem on_eq {entry : Plan.Entry} (isEntry : entry ∈ (of root operations).plan.entries) :
    (∃ condition, (of root operations).condition? entry.key = some condition ∧
      entry.on = condition.detached) ∨
    ((of root operations).condition? entry.key = none ∧
      ∃ hop owner, (of root operations).firstHop? entry.key = some hop ∧
        entry.on = hop.link.keyCondition owner entry.relation) := by
  by_cases noPath : entry.path = []
  · obtain ⟨table, condition, isFirst, declared, same⟩ :=
      tabled root operations entry isEntry noPath
    -- Hops traverse keys with a path only, so none comes before the table.
    have noHop : (of root operations).firstHop? entry.key = none := by
      rw [Option.eq_none_iff_forall_ne_some]
      intro hop isFirstHop
      apply path_ne_nil_of_firstHop? isFirstHop
      rw [Plan.path_key, noPath]
    have isFirst : (of root operations).firstTable? entry.key = some table := isFirst
    refine .inl ⟨condition, ?_, by rw [same]; rfl⟩
    rw [condition?, noHop, isFirst]
    exact declared
  · obtain ⟨position, atPosition⟩ := List.mem_iff_getElem?.1 isEntry
    obtain ⟨hop, isFirst, -, owner, -, joinedOn⟩ :=
      explained root operations position entry atPosition noPath
    have isFirst : (of root operations).firstHop? entry.key = some hop := isFirst
    have on := joinedOn.on_eq
    have recorded : (of root operations).condition? entry.key = hop.condition? := by
      rw [condition?, isFirst]
    rw [recorded]
    cases atHop : hop.condition? with
    | some condition =>
        rw [atHop] at on
        exact .inl ⟨condition, rfl, on⟩
    | none =>
        rw [atHop] at on
        exact .inr ⟨rfl, hop, owner, isFirst, on⟩

end Run

end Joinery
