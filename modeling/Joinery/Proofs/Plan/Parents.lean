import Joinery.Proofs.Plan.FirstTraversal

/-!
Contract: what the entries of a plan are joined to, and on which condition.

A chain leads over its hops, and each hop traverses a key. The hop that
traverses a key first decides how the entry of that key is joined: its kind,
and the condition by `JoinedOn`. The condition refers to the parent of the
entry, the relation that its path continues from. That is the base for a path
of one segment, and else an entry that stands before it.

`Run.explained` states this of every entry of every run that has a path.

Owns: the hops of a run, parents, and the conditions of entries.

Does not own: the statement that is built from the entries.
-/

namespace Joinery

open Query (Chain Context Event Hop Segment Table Term)
open Sql (Expr Relation)

/-! ## Conditions of hops -/

/-- Neither the hop nor its association has a condition. -/
def Query.Hop.ByKeys (hop : Hop Term) : Prop :=
  hop.table.condition = none ∧ hop.link.condition = none

/-- The condition on which a hop joins a relation to that of its owner, by
priority. The equality of keys has the column of the joined relation on the
left. -/
inductive Plan.JoinedOn (hop : Hop Term) (owner target : Relation) : Expr → Prop where
  | chosen {condition : Term} (own : hop.table.condition = some condition) :
      JoinedOn hop owner target condition.detached
  | declared {condition : Term} (noOwn : hop.table.condition = none)
      (declared : hop.link.condition = some condition) :
      JoinedOn hop owner target condition.detached
  | belongsTo (byKeys : hop.ByKeys) (kind : hop.link.kind = .belongsTo) :
      JoinedOn hop owner target
        (.binary .eq (.qualified target.qualifier hop.link.primaryKey)
          (.qualified owner.qualifier hop.link.foreignKey))
  | has (byKeys : hop.ByKeys) (kind : hop.link.kind = .hasOne ∨ hop.link.kind = .hasMany) :
      JoinedOn hop owner target
        (.binary .eq (.qualified target.qualifier hop.link.foreignKey)
          (.qualified owner.qualifier hop.link.primaryKey))

namespace Plan

theorem joinedOn_hopCondition (hop : Hop Term) (owner target : Relation) :
    JoinedOn hop owner target (hopCondition hop owner target) := by
  unfold hopCondition
  cases own : hop.table.condition with
  | some condition => exact .chosen own
  | none =>
      cases declared : hop.link.condition with
      | some condition => exact .declared own declared
      | none =>
          simp only [Query.Link.keyCondition, Query.Link.targetKey, Query.Link.ownerKey]
          cases kind : hop.link.kind with
          | belongsTo => exact .belongsTo ⟨own, declared⟩ kind
          | hasOne => exact .has ⟨own, declared⟩ (.inl kind)
          | hasMany => exact .has ⟨own, declared⟩ (.inr kind)

/-! ## Parents -/

/-- The relation that the path of an entry continues from. -/
inductive ParentOf (plan : Plan) (position : Nat) (entry : Entry) : Relation → Prop where
  | base (single : entry.path.length = 1) : ParentOf plan position entry plan.base
  | entry {parent : Entry} {earlier : Nat} (before : earlier < position)
      (atEarlier : plan.entries[earlier]? = some parent)
      (continued : parent.path = entry.path.dropLast) (notEmpty : parent.path ≠ []) :
      ParentOf plan position entry parent.relation

variable {plan after : Plan} {position : Nat} {entry : Entry} {owner : Relation}

theorem ParentOf.grow (grows : plan.Grows after) (parent : plan.ParentOf position entry owner) :
    after.ParentOf position entry owner := by
  cases parent with
  | base single =>
      rw [← grows.base]
      exact .base single
  | entry before atEarlier continued notEmpty =>
      exact .entry before (grows.getElem? atEarlier) continued notEmpty

/-- The parent is the base if nothing is left of the path without its end,
and else an entry that has the rest as its path. -/
theorem ParentOf.base_or_entry (parentOf : plan.ParentOf position entry owner) :
    (entry.path.dropLast = [] ∧ owner = plan.base) ∨
    ∃ parent ∈ plan.entries, parent.path = entry.path.dropLast ∧ parent.path ≠ [] ∧
      owner = parent.relation := by
  cases parentOf with
  | base single =>
      have short : entry.path.dropLast = [] := by
        rw [← List.length_eq_zero_iff, List.length_dropLast, single]
      exact .inl ⟨short, rfl⟩
  | entry before atEarlier continued notEmpty =>
      exact .inr ⟨_, List.mem_of_getElem? atEarlier, continued, notEmpty, rfl⟩

/-! ## Hops and their keys -/

/-- The hops that joining a source goes over, each under the key that it
traverses. A table is joined without a hop. -/
def hops : Context Term → List (Key × Hop Term)
  | .chain chain => (hopKeys [] chain.hops).zip chain.hops
  | .table _ => []

theorem length_hopKeys (path : List Segment) (hops : List (Hop Term)) :
    (hopKeys path hops).length = hops.length := by
  induction hops generalizing path with
  | nil => rfl
  | cons hop others inductionHypothesis => simp [hopKeys, inductionHypothesis]

theorem path_ne_nil_of_mem_hopKeys {path : List Segment} {hops : List (Hop Term)} {key : Key}
    (member : key ∈ hopKeys path hops) : key.path ≠ [] := by
  induction hops generalizing path with
  | nil => cases member
  | cons hop others inductionHypothesis =>
      rcases List.mem_cons.1 member with rfl | later
      · simp [Key.of]
      · exact inductionHypothesis later

theorem mem_traversed_of_mem_hops {source : Context Term} {step : Key × Hop Term}
    (member : step ∈ hops source) : step.1 ∈ traversed source := by
  cases source with
  | chain chain =>
      have keys : (hops (.chain chain)).map Prod.fst = hopKeys [] chain.hops :=
        List.map_fst_zip (Nat.le_of_eq (length_hopKeys [] chain.hops))
      show step.1 ∈ hopKeys [] chain.hops
      rw [← keys]
      exact List.mem_map_of_mem member
  | table table => cases member

theorem path_ne_nil_of_mem_hops {source : Context Term} {step : Key × Hop Term}
    (member : step ∈ hops source) : step.1.path ≠ [] := by
  cases source with
  | chain chain =>
      have isKey : step.1 ∈ hopKeys [] chain.hops := mem_traversed_of_mem_hops member
      exact path_ne_nil_of_mem_hopKeys isKey
  | table table => cases member

/-- A walk one hop longer goes over one more hop, under its key. -/
theorem zip_hopKeys_concat (hops : List (Hop Term)) (hop : Hop Term) :
    (hopKeys [] (hops ++ [hop])).zip (hops ++ [hop]) =
      (hopKeys [] hops).zip hops ++
        [(.of hop.table.relation ((hops ++ [hop]).map segment), hop)] := by
  rw [hopKeys_concat, List.nil_append, List.zip_append (length_hopKeys [] hops)]
  rfl

/-! ## Explained entries -/

/-- The entry at a position is joined to its parent as a hop says. -/
def JoinedBy (plan : Plan) (position : Nat) (entry : Entry) (hop : Hop Term) : Prop :=
  entry.kind = hop.table.join ∧
    ∃ owner, plan.ParentOf position entry owner ∧ JoinedOn hop owner entry.relation entry.on

/-- Every entry that has a path is joined as the first hop under its key
says. -/
def Explained (plan : Plan) (steps : List (Key × Hop Term)) : Prop :=
  ∀ (position : Nat) (entry : Entry), plan.entries[position]? = some entry → entry.path ≠ [] →
    ∃ hop, steps.lookup entry.key = some hop ∧ plan.JoinedBy position entry hop

variable {steps : List (Key × Hop Term)}

/-- Later hops explain nothing anew. -/
theorem Explained.continue (explained : plan.Explained steps) (later : List (Key × Hop Term)) :
    plan.Explained (steps ++ later) := by
  intro position entry atPosition hasPath
  obtain ⟨hop, isFirst, joinedBy⟩ := explained position entry atPosition hasPath
  refine ⟨hop, ?_, joinedBy⟩
  rw [List.lookup_append, isFirst, Option.some_or]

theorem Explained.append (explained : plan.Explained steps)
    (new : entry.path ≠ [] → ∃ hop, steps.lookup entry.key = some hop ∧
      plan.JoinedBy plan.entries.length entry hop) :
    (plan.append entry.key entry).Explained steps := by
  have grows := Grows.append plan entry.key entry
  have keepParent {position : Nat} {entry' : Entry} {hop : Hop Term} :
      plan.JoinedBy position entry' hop →
        (plan.append entry.key entry).JoinedBy position entry' hop := by
    rintro ⟨kind, owner, parent, on⟩
    exact ⟨kind, owner, parent.grow grows, on⟩
  intro position other atPosition hasPath
  rw [entries_append] at atPosition
  by_cases isOld : position < plan.entries.length
  · rw [List.getElem?_append_left isOld] at atPosition
    obtain ⟨hop, isFirst, joinedBy⟩ := explained position other atPosition hasPath
    exact ⟨hop, isFirst, keepParent joinedBy⟩
  · have isLast : position = plan.entries.length := by
      have bound := (List.getElem?_eq_some_iff.1 atPosition).1
      rw [List.length_append, List.length_singleton] at bound
      omega
    subst isLast
    rw [List.getElem?_concat_length, Option.some.injEq] at atPosition
    subst atPosition
    obtain ⟨hop, isFirst, joinedBy⟩ := new hasPath
    exact ⟨hop, isFirst, keepParent joinedBy⟩

/-! ## Entries of a walk -/

namespace Consistent

variable (consistent : plan.Consistent)
include consistent

/-- The parent of the next entry of a walk is where the walk stands. -/
theorem parentOf_newEntry (walked : List (Hop Term)) (hop : Hop Term) :
    ((plan.walk walked).arrived plan).ParentOf
      ((plan.walk walked).arrived plan).entries.length
      ((plan.walk walked).newEntry plan hop) (plan.walk walked).owner := by
  have newPath : ((plan.walk walked).newEntry plan hop).path =
      walked.map segment ++ [segment hop] := by
    rw [← path_walk plan walked]
    rfl
  cases walked using List.reverseRecOn with
  | nil =>
      have atBase : (plan.walk []).owner = ((plan.walk []).arrived plan).base := rfl
      rw [atBase]
      apply ParentOf.base
      rw [newPath]
      rfl
  | append_singleton earlier previous =>
      obtain ⟨parent, isEntry, hasKey, standsAt⟩ := consistent.owner_walk earlier previous
      obtain ⟨position, atPosition⟩ := List.mem_iff_getElem?.1 isEntry
      have before := (List.getElem?_eq_some_iff.1 atPosition).1
      have parentPath : parent.path = (earlier ++ [previous]).map segment := by
        rw [← path_key parent, hasKey]
        rfl
      rw [← standsAt]
      apply ParentOf.entry before atPosition
      · rw [newPath, List.dropLast_concat, parentPath]
      · rw [parentPath]
        simp

/-- A walk keeps entries explained, by the hops known before and its own. -/
theorem explained_walk {traversals : List Key} (recorded : plan.keys = traversals.eraseDups)
    (known : ∀ step ∈ steps, step.1 ∈ traversals) (explained : plan.Explained steps)
    (walked : List (Hop Term)) :
    ((plan.walk walked).arrived plan).Explained (steps ++ (hopKeys [] walked).zip walked) := by
  induction walked using List.reverseRecOn with
  | nil =>
      rw [List.zip_nil_right, List.append_nil]
      exact explained
  | append_singleton walked hop inductionHypothesis =>
      rw [walk_concat, zip_hopKeys_concat, ← keyTo_walk plan, ← List.append_assoc]
      have explainedBefore := inductionHypothesis.continue [((plan.walk walked).keyTo hop, hop)]
      obtain ⟨_, -, -, stepEq⟩ | ⟨isNew, stepEq⟩ :=
        (consistent.valid_walk walked).step_cases hop
      · rw [stepEq, Walk.arrived_reuse]
        exact explainedBefore
      · rw [stepEq, Walk.arrived_stage]
        apply explainedBefore.append
        intro _
        refine ⟨hop, ?_, rfl, _, consistent.parentOf_newEntry walked hop,
          joinedOn_hopCondition hop _ _⟩
        -- The key is new, so no hop before went under it.
        have noneBefore :
            (steps ++ (hopKeys [] walked).zip walked).lookup
              ((plan.walk walked).keyTo hop) = none := by
          apply lookup_eq_none
          intro step member same
          have isTraversed : step.1 ∈ traversals ++ hopKeys [] walked := by
            rcases List.mem_append.1 member with isKnown | isWalked
            · exact List.mem_append_left _ (known step isKnown)
            · exact List.mem_append_right _ (List.of_mem_zip isWalked).1
          rw [consistent.keys_walk recorded, List.mem_eraseDups] at isNew
          exact isNew (same ▸ isTraversed)
        rw [Walk.key_newEntry, List.lookup_append, noneBefore, Option.none_or]
        simp

end Consistent

end Plan

/-! ## Entries of a run -/

namespace Run

/-- The hops that all joins of the run went over, in order, each under the
key that it traversed. -/
def hops (run : Run) : List (Plan.Key × Hop Term) :=
  run.joined.flatMap fun joined => Plan.hops joined.source

/-- The hop that traversed a key first. -/
def firstHop? (run : Run) (key : Plan.Key) : Option (Hop Term) :=
  run.hops.lookup key

theorem mem_traversals_of_mem_hops {run : Run} :
    ∀ step ∈ run.hops, step.1 ∈ run.traversals := by
  intro step member
  obtain ⟨joined, isJoined, isStep⟩ := List.mem_flatMap.1 member
  exact List.mem_flatMap.2 ⟨joined, isJoined, Plan.mem_traversed_of_mem_hops isStep⟩

/-- Hops traverse keys with a path. -/
theorem path_ne_nil_of_firstHop? {run : Run} {key : Plan.Key} {hop : Hop Term}
    (isFirst : run.firstHop? key = some hop) : key.path ≠ [] := by
  obtain ⟨joined, -, isStep⟩ := List.mem_flatMap.1 (Plan.mem_of_lookup isFirst)
  exact Plan.path_ne_nil_of_mem_hops isStep

theorem kept_explained : Kept fun run => run.Recorded ∧ run.plan.Explained run.hops where
  chain {run chain relation after events} before joined := by
    refine ⟨kept_recorded.chain before.1 joined, ?_⟩
    obtain ⟨-, rfl, -⟩ := Planning.joinChain_eq_ok joined
    have explained := before.1.consistent.explained_walk before.1.keys
      mem_traversals_of_mem_hops before.2 chain.hops
    simpa [hops, Plan.hops] using explained
  table {run table relation after events} before joined := by
    refine ⟨kept_recorded.table before.1 joined, ?_⟩
    have sameHops : hops ⟨after, run.log ++ events, run.joined ++ [⟨.table table, relation⟩]⟩ =
        run.hops := by
      simp [hops, Plan.hops]
    rw [sameHops]
    obtain ⟨condition, -, ⟨-, -, -, rfl, -⟩ | ⟨-, -, rfl, -⟩⟩ := Planning.joinTable_eq_ok joined
    · exact before.2
    · rw [← Plan.key_tableEntry table condition]
      apply before.2.append
      intro hasPath
      exact absurd rfl hasPath

/-- Every entry of a run that has a path is joined to its parent as the hop
says that traversed its key first. -/
theorem explained (root : Table Term) (operations : List Operation) :
    (of root operations).plan.Explained (of root operations).hops :=
  (kept_explained.of ⟨recorded_start root, by simp [start, Plan.ofRoot, Plan.Explained]⟩
    operations).2

end Run

end Joinery
