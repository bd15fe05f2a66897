import Joinery.Proofs.Catalog.Lookups
import Joinery.Proofs.Catalog.Contexts
import Joinery.Proofs.Query.Uses

/-!
Contract: chains stay linked however they come about.

A context that uses give from a table of a catalog is described by the route of
its moves. Its root is the table with the settings of the time at which the first
association was followed. Each association of the route has a hop, which follows
the association of that name in the scope where the hop before it ended, to the
target's table with the settings that were made while the hop was the last one
(`well_linked`).

Owns: the hops along the legs of a route, and the context that a route leads to.

Does not own: the moves that uses come down to.
-/

namespace Joinery

namespace Query

/-- The root and the tables of the hops, in order. -/
def Context.tables (context : Context Term) : List (Table Term) :=
  context.root :: context.hops.map Hop.table

theorem Context.tables_chain (route : Chain Term) :
    (Context.chain route).tables =
      (route.root :: route.earlier.map Hop.table) ++ [route.target] := by
  simp [tables, root, hops, Chain.hops, Chain.target]

theorem Context.target_mapTarget (context : Context Term) (change : Table Term → Table Term) :
    (context.mapTarget change).target = change context.target := by
  cases context <;> rfl

/-- Only the last table changes. -/
theorem Context.tables_mapTarget (context : Context Term) (change : Table Term → Table Term) :
    (context.mapTarget change).tables = context.tables.dropLast ++ [change context.target] := by
  cases context with
  | table plain => rfl
  | chain route =>
      rw [mapTarget, tables_chain, tables_chain, List.dropLast_concat]
      rfl

theorem Context.links_mapTarget (context : Context Term) (change : Table Term → Table Term) :
    (context.mapTarget change).hops.map Hop.link = context.hops.map Hop.link := by
  cases context with
  | table plain => rfl
  | chain route => simp [hops, mapTarget, Chain.mapTarget, Chain.hops]

theorem Context.mapTarget_settled_nil (context : Context Term) :
    context.mapTarget (·.settled []) = context := by
  cases context <;> rfl

theorem Context.mapTarget_settled_cons (context : Context Term) (change : Change)
    (changes : List Change) :
    context.mapTarget (·.settled (change :: changes)) =
      (change.applyTo context).mapTarget (·.settled changes) := by
  rw [change.applyTo_eq]
  cases context <;> simp [mapTarget, Chain.mapTarget, Table.settled_cons]

/-- Changes after an association was followed leave the context before it. -/
theorem Context.root_mapTarget_follow (context : Context Term) (link : Link Term)
    (change : Table Term → Table Term) :
    ((Context.chain (context.follow link)).mapTarget change).root = context.root := by
  cases context <;> rfl

theorem Context.hops_mapTarget_follow (context : Context Term) (link : Link Term)
    (change : Table Term → Table Term) :
    ((Context.chain (context.follow link)).mapTarget change).hops =
      context.hops ++ [⟨link, change (.ofScope link.target)⟩] := by
  cases context <;> rfl

/-- The owner of the last hop is the table before it. -/
theorem Context.getElem?_tables_owner (route : Chain Term) :
    (Context.chain route).tables[route.earlier.length]? = some route.owner := by
  rw [tables_chain, List.getElem?_append_left (by simp)]
  unfold Chain.owner
  rcases List.eq_nil_or_concat route.earlier with single | ⟨earlier, hop, further⟩
  · simp [single]
  · simp [further]

end Query

namespace Catalog

open Query (Change Chain Context Hop Link Move Route Scope Table Term Use)

variable {catalog : Catalog}

/-! ## Hops along a route -/

/-- The hops that the legs of a route lead over from an owner. Each hop starts
with no settings. -/
inductive Linked (catalog : Catalog) :
    Table Term → List (String × List Change) → List (Hop Term) → Prop where
  | nil (owner : Table Term) : Linked catalog owner [] []
  | cons {owner target : Table Term} {link : Link Term} {changes : List Change}
      {legs : List (String × List Change)} {hops : List (Hop Term)}
      (declared : catalog.link? owner.scope link.name = some link)
      (settled : target = (Table.ofScope link.target).settled changes)
      (later : Linked catalog target legs hops) :
      Linked catalog owner ((link.name, changes) :: legs) (⟨link, target⟩ :: hops)

namespace Linked

variable {owner : Table Term} {legs : List (String × List Change)} {hops : List (Hop Term)}

theorem names (linked : catalog.Linked owner legs hops) :
    hops.map Hop.name = legs.map Prod.fst := by
  induction linked with
  | nil => rfl
  | cons declared settled later inductionHypothesis =>
      simp [inductionHypothesis, Hop.name]

/-- Every hop follows the association of its name in the scope of the table
before it, to a table of the target. -/
theorem link (linked : catalog.Linked owner legs hops) {position : Nat} {before : Table Term}
    {hop : Hop Term} (isBefore : (owner :: hops.map Hop.table)[position]? = some before)
    (isHop : hops[position]? = some hop) :
    catalog.link? before.scope hop.name = some hop.link ∧ hop.table.scope = hop.link.target := by
  induction linked generalizing position with
  | nil => simp at isHop
  | cons declared settled later inductionHypothesis =>
      cases position with
      | zero =>
          cases isBefore
          cases isHop
          exact ⟨declared, congrArg Table.scope settled⟩
      | succ position => exact inductionHypothesis isBefore isHop

/-- Every hop has the settings of its leg. -/
theorem table (linked : catalog.Linked owner legs hops) {position : Nat}
    {leg : String × List Change} {hop : Hop Term} (isLeg : legs[position]? = some leg)
    (isHop : hops[position]? = some hop) :
    hop.table = (Table.ofScope hop.link.target).settled leg.2 := by
  induction linked generalizing position with
  | nil => simp at isHop
  | cons declared settled later inductionHypothesis =>
      cases position with
      | zero =>
          cases isLeg
          cases isHop
          exact settled
      | succ position => exact inductionHypothesis isLeg isHop

theorem ownTable (linked : catalog.Linked owner legs hops) :
    ∀ joined ∈ hops.map Hop.table, joined.relation.table = joined.scope.table := by
  induction linked with
  | nil => simp
  | cons declared settled later inductionHypothesis =>
      rw [List.map_cons, List.forall_mem_cons]
      refine ⟨?_, inductionHypothesis⟩
      show Sql.Relation.table (Table.relation _) = _
      rw [settled]
      rfl

end Linked

/-! ## The context that a route leads to -/

/-- From any context, moves change its table as before their first association and
then add linked hops. -/
theorem linked_of_makeAll {context reached : Context Term} {moves : List Move}
    (made : context.makeAll catalog.directory moves = some reached) :
    ∃ hops, catalog.Linked (context.target.settled (Route.ofMoves moves).start)
        (Route.ofMoves moves).legs hops ∧
      reached.root = (context.mapTarget (·.settled (Route.ofMoves moves).start)).root ∧
      reached.hops = (context.mapTarget (·.settled (Route.ofMoves moves).start)).hops ++ hops := by
  -- From the first move on: changes belong to the table that is last at the time,
  -- so an association that is followed settles the table before it for good.
  induction moves generalizing context with
  | nil =>
      cases made
      rw [Route.ofMoves, Context.mapTarget_settled_nil]
      exact ⟨[], .nil _, rfl, (List.append_nil _).symm⟩
  | cons move later inductionHypothesis =>
      obtain ⟨next, isNext, further⟩ := Option.bind_eq_some_iff.1 made
      obtain ⟨hops, linked, sameRoot, sameHops⟩ := inductionHypothesis further
      cases move with
      | set change =>
          cases isNext
          rw [change.applyTo_eq, Context.target_mapTarget, ← Table.settled_cons] at linked
          rw [← Context.mapTarget_settled_cons] at sameRoot sameHops
          exact ⟨hops, linked, sameRoot, sameHops⟩
      | follow name =>
          obtain ⟨chain, isChain, rfl⟩ := Option.map_eq_some_iff.1 isNext
          obtain ⟨link, declared, rfl⟩ :=
            Context.association_eq_ok_iff.1 (Query.toOption_eq_some_iff.1 isChain)
          obtain rfl : link.name = name := name_of_link? declared
          rw [Context.root_mapTarget_follow] at sameRoot
          rw [Context.hops_mapTarget_follow, List.append_assoc] at sameHops
          have target : (Context.chain (context.follow link)).target = .ofScope link.target := by
            cases context <;> rfl
          rw [target] at linked
          rw [Route.ofMoves, Context.mapTarget_settled_nil, Table.settled_nil]
          exact ⟨_, .cons declared rfl linked, sameRoot, sameHops⟩

/-- The context is what a route from a table leads to. -/
structure WellLinked (catalog : Catalog) (table : Table Term) (route : Route)
    (context : Context Term) : Prop where
  /-- The root is the table as it was when the first association was followed. -/
  root : context.root = table.settled route.start
  names : context.hops.map Hop.name = route.legs.map Prod.fst
  /-- Each hop follows what the scope of the table before it declares. -/
  links : ∀ (position : Nat) (owner : Table Term) (hop : Hop Term),
    context.tables[position]? = some owner → context.hops[position]? = some hop →
      catalog.link? owner.scope hop.name = some hop.link ∧ hop.table.scope = hop.link.target
  /-- Each hop has the settings that were made while it was the last one. -/
  settings : ∀ (position : Nat) (leg : String × List Change) (hop : Hop Term),
    route.legs[position]? = some leg → context.hops[position]? = some hop →
      hop.table = (Table.ofScope hop.link.target).settled leg.2
  ownTable : ∀ joined ∈ context.tables, joined.relation.table = joined.scope.table
  owner : ∀ chain, context = .chain chain →
    context.tables[chain.earlier.length]? = some chain.owner
  /-- A change makes its one setting on the last table and leaves all else. -/
  changed : ∀ change : Change,
    (change.applyTo context).tables =
        context.tables.dropLast ++ [context.target.settled [change]] ∧
      (change.applyTo context).hops.map Hop.link = context.hops.map Hop.link

/-- However a table of a catalog is used, the context that comes of it is linked
along the route of the moves that were made. -/
theorem well_linked (catalog : Catalog) {model : String} {table : Table Term}
    (given : catalog.table model = .ok table) {uses : List Use} {moves : List Move}
    {reached : Context Term}
    (used : Context.useAll catalog.directory (.table table) uses = some (moves, reached)) :
    catalog.WellLinked table (Route.ofMoves moves) reached := by
  obtain ⟨hops, linked, sameRoot, sameHops⟩ :=
    linked_of_makeAll (Context.makeAll_of_useAll used)
  have sameRoot : reached.root = table.settled (Route.ofMoves moves).start := sameRoot
  have sameHops : reached.hops = hops := sameHops
  have sameTables : reached.tables =
      table.settled (Route.ofMoves moves).start :: hops.map Hop.table := by
    rw [Context.tables, sameRoot, sameHops]
  refine ⟨sameRoot, ?_, ?_, ?_, ?_, ?_, ?_⟩
  · rw [sameHops]
    exact linked.names
  · intro position owner hop isOwner isHop
    rw [sameTables] at isOwner
    rw [sameHops] at isHop
    exact linked.link isOwner isHop
  · intro position leg hop isLeg isHop
    rw [sameHops] at isHop
    exact linked.table isLeg isHop
  · rw [sameTables, List.forall_mem_cons]
    exact ⟨(lists_of_table given).table, linked.ownTable⟩
  · rintro chain rfl
    exact Context.getElem?_tables_owner chain
  · intro change
    rw [change.applyTo_eq, Table.settled_cons, Table.settled_nil]
    exact ⟨reached.tables_mapTarget change.apply, reached.links_mapTarget change.apply⟩

end Catalog

namespace Firm

open Query (Route Table Term Use)

/-- The table of clerks. -/
def clerks : Table Term :=
  .ofScope (Catalog.scopeOf 2 clerk)

/-- Ways to use contexts, of which `resolve` finds a column and so stays where it
is, and `path` follows two associations to a column. -/
def errands : List Use :=
  [ .set (.withAlias "c"), .resolve "mentor", .path "mentor.mentor.id", .set .outer,
    .set (.withAlias "peer"), .association "mentor", .set .outer, .set (.withAlias "a"),
    .set .inner, .set (.on (.sql "TRUE")), .set (.withAlias "b") ]

/-- The changes before the first association, and after each. -/
def errandsRoute : Route where
  start := [.withAlias "c"]
  legs :=
    [ ("mentor", []), ("mentor", [.outer, .withAlias "peer"]),
      ("mentor", [.outer, .withAlias "a", .inner, .on (.sql "TRUE"), .withAlias "b"]) ]

theorem errands_linked :
    Catalog.table { document := office } "Clerk" = .ok clerks ∧
    ∃ moves reached,
      Query.Context.useAll (Catalog.directory { document := office }) (.table clerks) errands =
        some (moves, reached) ∧
      Catalog.WellLinked { document := office } clerks errandsRoute reached := by
  have given : Catalog.table { document := office } "Clerk" = .ok clerks := rfl
  obtain ⟨moves, reached, used, isRoute⟩ : ∃ moves reached,
      Query.Context.useAll (Catalog.directory { document := office }) (.table clerks) errands =
        some (moves, reached) ∧ Route.ofMoves moves = errandsRoute := ⟨_, _, rfl, rfl⟩
  have linked := Catalog.well_linked _ given used
  rw [isRoute] at linked
  exact ⟨given, moves, reached, used, linked⟩

end Firm

end Joinery
