import Joinery.Plan.Alias
import Joinery.Plan.Planning
import Joinery.Query.Lookup

/-!
Contract: joining chains and tables into a plan.

A chain is joined hop by hop. A hop whose key the plan already knows reuses
that entry; any other hop gets an entry of its own after those present, and
an automatic alias if its table has no alias and its name is already a
qualifier. A table is joined explicitly on its own condition. Joining the
same thing again changes nothing and is only logged.

The entries of a chain are staged along the way and added to the plan when
the last hop is done. A chain is thus joined as a whole or not at all: the
only obstacle is a root that differs from the plan's, which is checked first.

Owns: the joining of chains, paths, tables and contexts, and its events.

Does not own: the lowering of terms, which joins what they refer to.
-/

namespace Joinery

open Query (Chain Context Directory Error Event Hop Segment Table Term)
open Sql (Expr Relation)

/-- The condition on which a hop is joined: its own, else the one declared
for its association, else the equality of the keys. -/
def Plan.hopCondition (hop : Hop Term) (owner target : Relation) : Expr :=
  match hop.table.condition, hop.link.condition with
  | some condition, _ => condition.detached
  | none, some condition => condition.detached
  | none, none => hop.link.keyCondition owner target

/-- The segment of a hop in the path of its entry. -/
def Plan.segment (hop : Hop Term) : Segment :=
  ⟨hop.name, hop.table.relation.aliasName⟩

/-- The relation under which a new hop is joined when some qualifiers are
taken, with the events of choosing it. -/
def Plan.relationFor (taken : List String) (hop : Hop Term) (owner : Relation) :
    Relation × List Event :=
  let relation := hop.table.relation
  if relation.qualifier ∉ taken then (relation, [])
  else if relation.aliasName.isSome then
    (relation, [.aliasCollides relation.qualifier hop.name])
  else
    let aliasName := freeAlias taken (aliasStem hop owner)
    ({ relation with aliasName := some aliasName },
      [.repeatedTableAliased relation.table.name aliasName])

/-- A walk along the hops of a chain: the entries staged so far, the relation
and path of the last hop, and the events so far. -/
structure Plan.Walk where
  staged : List (Key × Entry)
  owner : Relation
  path : List Segment
  events : List Event

namespace Plan.Walk

/-- The walk that stands at the root of a plan. -/
def start (plan : Plan) : Walk :=
  { staged := [], owner := plan.base, path := [], events := [] }

/-- The qualifiers of the plan and of the staged entries. -/
def taken (plan : Plan) (walk : Walk) : List String :=
  plan.qualifiers ++ walk.staged.map (·.2.relation.qualifier)

/-- The entry of a key, in the plan or else among the staged ones. -/
def find? (plan : Plan) (walk : Walk) (key : Key) : Option Entry :=
  (plan.find? key).or (walk.staged.lookup key)

/-- The path of the next hop. -/
def pathTo (walk : Walk) (hop : Hop Term) : List Segment :=
  walk.path ++ [segment hop]

/-- The key of the next hop. -/
def keyTo (walk : Walk) (hop : Hop Term) : Key :=
  .of hop.table.relation (walk.pathTo hop)

/-- Goes one hop on over an entry that is there already. -/
def reuse (walk : Walk) (hop : Hop Term) (entry : Entry) : Walk :=
  { staged := walk.staged
    owner := entry.relation
    path := walk.pathTo hop
    events := walk.events ++
      [entry.joinedAgain hop.table.join (hopCondition hop walk.owner entry.relation)] }

/-- The entry of the next hop if it is joined under a given relation. -/
def entryUnder (walk : Walk) (hop : Hop Term) (relation : Relation) : Entry :=
  { relation
    kind := hop.table.join
    on := hopCondition hop walk.owner relation
    path := walk.pathTo hop }

/-- Goes one hop on over an entry of its own. -/
def stage (plan : Plan) (walk : Walk) (hop : Hop Term) : Walk :=
  let choice := relationFor (walk.taken plan) hop walk.owner
  { staged := walk.staged ++ [(walk.keyTo hop, walk.entryUnder hop choice.1)]
    owner := choice.1
    path := walk.pathTo hop
    events := walk.events ++ choice.2 }

/-- Goes one hop on, over the entry of its key or over a new one. -/
def step (plan : Plan) (walk : Walk) (hop : Hop Term) : Walk :=
  match walk.find? plan (walk.keyTo hop) with
  | some entry => walk.reuse hop entry
  | none => walk.stage plan hop

end Plan.Walk

/-- The walk along some hops from the root of a plan. -/
def Plan.walk (plan : Plan) (hops : List (Hop Term)) : Walk :=
  hops.foldl (Walk.step plan) (.start plan)

namespace Planning

/-- Whether a table is the root of the plan: the same model and relation. -/
def isRoot (plan : Plan) (table : Table Term) : Bool :=
  table.model = plan.root.model && table.relation = plan.base

/-- Joins every hop of a chain and gives the relation of the last one. The
events that entries were added come last. -/
def joinChain (chain : Chain Term) : Planning Relation := fun plan =>
  if isRoot plan chain.root then
    let walk := plan.walk chain.hops
    { result := .ok walk.owner
      plan := plan.commit walk.staged
      events := walk.events ++ walk.staged.map fun arrival => arrival.2.appended }
  else
    { result := .error (.rootMismatch plan.base.qualifier chain.root.relation.qualifier)
      plan
      events := [] }

/-- Joins the chain along association names, starting at the root. Without
names it is the base relation. -/
def joinPath (directory : Directory) (names : List String) : Planning Relation := fun plan =>
  match Context.followAll directory (.table plan.root) names with
  | .ok (.table table) => give table.relation plan
  | .ok (.chain chain) => joinChain chain plan
  | .error error => fail error plan

/-- Joins a table on its own condition. -/
def joinTable (table : Table Term) : Planning Relation := fun plan =>
  match table.condition with
  | none => fail (.missingJoinCondition table.relation.qualifier) plan
  | some condition =>
      let relation := table.relation
      let on := condition.detached
      let key : Plan.Key := .of relation []
      match plan.find? key with
      | some entry =>
          { result := .ok entry.relation
            plan
            events := [entry.joinedAgain table.join on] }
      | none =>
          let entry : Plan.Entry := ⟨relation, table.join, on, []⟩
          let notices :=
            if relation.qualifier ∈ plan.qualifiers then
              [Event.qualifierReused relation.qualifier]
            else []
          { result := .ok relation
            plan := plan.append key entry
            events := notices ++ [entry.appended] }

/-- Makes the relation of a context available and gives it. A table must be
the root, or carry a condition to be joined on, or be joined already. -/
def joinContext : Context Term → Planning Relation
  | .chain chain => joinChain chain
  | .table table => fun plan =>
      if isRoot plan table then give table.relation plan
      else if table.condition.isSome then joinTable table plan
      else if table.relation ∈ plan.entries.map Plan.Entry.relation then
        give table.relation plan
      else fail (.relationNotInPlan table.relation.qualifier) plan

end Planning

end Joinery
