import Joinery.Catalog
import Joinery.Proofs.Query.Members
import Mathlib.Data.List.Induction

/-!
Contract: where the contexts of a catalog lead.

A catalog gives the tables of its models and the chains of their associations,
and a given context may be changed. However it came about, its root is a
model of the catalog, and each of its hops follows an association that is
declared where the hop before it ended. A chain is therefore determined, up
to aliases, join kinds and conditions, by the model of its root and the names
of its associations.

Owns: obtained contexts, and what the names of a chain determine.

Does not own: what a plan makes of a chain.
-/

namespace Joinery.Catalog

open Query (Chain Context Hop Link Scope Segment Table Term)

variable {catalog : Catalog}

/-- The contexts that a catalog gives, and all that they can be changed
into. -/
inductive Obtained (catalog : Catalog) : Context Term → Prop where
  | table {model : String} {table : Table Term} (found : catalog.table model = .ok table) :
      Obtained catalog (.table table)
  | association {context : Context Term} {name : String} {chain : Chain Term}
      (owner : Obtained catalog context)
      (followed : context.association catalog.directory name = .ok chain) :
      Obtained catalog (.chain chain)
  | withAlias {context : Context Term} (earlier : Obtained catalog context)
      (aliasName : String) : Obtained catalog (context.withAlias aliasName)
  | outer {context : Context Term} (earlier : Obtained catalog context) :
      Obtained catalog context.outer
  | inner {context : Context Term} (earlier : Obtained catalog context) :
      Obtained catalog context.inner
  | on {context : Context Term} (earlier : Obtained catalog context) (condition : Term) :
      Obtained catalog (context.on condition)

/-! ## Scopes and links -/

/-- A scope is found under the name of its own model. -/
theorem model_of_findScope? {model : String} {scope : Scope}
    (found : catalog.findScope? model = some scope) : scope.model = model := by
  unfold findScope? position? at found
  cases isPosition : catalog.models.findIdx? fun declared => declared.name.text = model with
  | none => simp [isPosition] at found
  | some position =>
      obtain ⟨bound, named, -⟩ := List.findIdx?_eq_some_iff_getElem.1 isPosition
      have sameScope : scopeOf position catalog.models[position] = scope := by
        simpa [isPosition, bound] using found
      rw [← sameScope]
      simpa [scopeOf] using named

/-- A link is found under its own name. -/
theorem name_of_link? {scope : Scope} {name : String} {link : Link Term}
    (found : catalog.link? scope name = some link) : link.name = name := by
  unfold link? at found
  cases isModel : catalog.model? scope with
  | none => simp [isModel] at found
  | some model =>
      cases isAssociation : model.association? name with
      | none => simp [isModel, isAssociation] at found
      | some association =>
          have named : association.name = name := by
            simpa using List.find?_some isAssociation
          cases isTarget : catalog.findScope? association.target.text with
          | none => simp [isModel, isAssociation, isTarget] at found
          | some target =>
              have sameLink := by simpa [isModel, isAssociation, isTarget] using found
              rw [← sameLink]
              exact named

/-! ## Hops -/

/-- The hop follows an association that is declared in the scope, to a table
of its target. -/
structure Declares (catalog : Catalog) (scope : Scope) (hop : Hop Term) : Prop where
  link : catalog.link? scope hop.name = some hop.link
  scope : hop.table.scope = hop.link.target
  table : hop.table.relation.table = hop.link.target.table

/-- The hops lead from one scope to another, each from where the one before
it ended. -/
inductive Leads (catalog : Catalog) (root : Scope) : List (Hop Term) → Scope → Prop where
  | nil : Leads catalog root [] root
  | concat {hops : List (Hop Term)} {scope : Scope} {hop : Hop Term}
      (earlier : Leads catalog root hops scope) (declares : catalog.Declares scope hop) :
      Leads catalog root (hops ++ [hop]) hop.link.target

variable {root reached reached' : Scope} {hops hops' : List (Hop Term)} {hop hop' : Hop Term}

theorem leads_nil_iff : catalog.Leads root [] reached ↔ reached = root := by
  constructor
  · generalize whole : ([] : List (Hop Term)) = all
    intro leads
    cases leads with
    | nil => rfl
    | concat => simp at whole
  · rintro rfl
    exact .nil

theorem leads_concat_iff :
    catalog.Leads root (hops ++ [hop]) reached ↔
      ∃ scope, catalog.Leads root hops scope ∧ catalog.Declares scope hop ∧
        reached = hop.link.target := by
  constructor
  · generalize whole : hops ++ [hop] = all
    intro leads
    cases leads with
    | nil => simp at whole
    | concat earlier declares =>
        obtain ⟨rfl, rfl⟩ := List.append_singleton_inj.1 whole
        exact ⟨_, earlier, declares, rfl⟩
  · rintro ⟨scope, earlier, declares, rfl⟩
    exact earlier.concat declares

theorem Leads.of_append {later : List (Hop Term)}
    (leads : catalog.Leads root (hops ++ later) reached) :
    ∃ scope, catalog.Leads root hops scope := by
  induction later using List.reverseRecOn generalizing reached with
  | nil => exact ⟨reached, by rwa [List.append_nil] at leads⟩
  | append_singleton later hop inductionHypothesis =>
      rw [← List.append_assoc] at leads
      obtain ⟨scope, earlier, -, -⟩ := leads_concat_iff.1 leads
      exact inductionHypothesis earlier

/-- Hops of the same names from the same scope follow the same links. -/
theorem Leads.unique (leads : catalog.Leads root hops reached)
    (other : catalog.Leads root hops' reached')
    (sameNames : hops.map Hop.name = hops'.map Hop.name) :
    reached = reached' ∧ hops.map Hop.link = hops'.map Hop.link := by
  induction hops using List.reverseRecOn generalizing hops' reached reached' with
  | nil =>
      obtain rfl : hops' = [] := by simpa using sameNames.symm
      rw [leads_nil_iff.1 leads, leads_nil_iff.1 other]
      exact ⟨rfl, rfl⟩
  | append_singleton hops hop inductionHypothesis =>
      obtain rfl | ⟨hops', hop', rfl⟩ := List.eq_nil_or_concat hops'
      · simp at sameNames
      rw [List.concat_eq_append] at other sameNames ⊢
      obtain ⟨scope, earlier, declares, rfl⟩ := leads_concat_iff.1 leads
      obtain ⟨scope', earlier', declares', rfl⟩ := leads_concat_iff.1 other
      rw [List.map_append, List.map_append] at sameNames
      obtain ⟨namesBefore, sameName⟩ := List.append_inj' sameNames rfl
      obtain ⟨rfl, linksBefore⟩ := inductionHypothesis earlier earlier' namesBefore
      have sameLink : hop.link = hop'.link := by
        have declared := declares.link
        rw [List.singleton_inj.1 sameName, declares'.link] at declared
        exact (Option.some.inj declared).symm
      refine ⟨by rw [sameLink], ?_⟩
      simp [linksBefore, sameLink]

/-! ## Chains -/

/-- The table is one of the scope that the catalog has for its model. -/
structure Lists (catalog : Catalog) (table : Table Term) : Prop where
  scope : catalog.findScope? table.model = some table.scope
  table : table.relation.table = table.scope.table

/-- The context starts at a table that the catalog lists and follows declared
associations only. -/
def Places (catalog : Catalog) : Context Term → Prop
  | .table table => catalog.Lists table
  | .chain chain => catalog.Lists chain.root ∧
      catalog.Leads chain.root.scope chain.hops chain.target.scope

theorem Lists.change {table : Table Term} (lists : catalog.Lists table)
    {change : Table Term → Table Term} (sameScope : (change table).scope = table.scope)
    (sameTable : (change table).relation.table = table.relation.table) :
    catalog.Lists (change table) where
  scope := by
    rw [Table.model, sameScope]
    exact lists.scope
  table := by
    rw [sameTable, sameScope]
    exact lists.table

theorem lists_of_table {model : String} {table : Table Term}
    (found : catalog.table model = .ok table) : catalog.Lists table := by
  unfold Catalog.table Catalog.scope at found
  cases isScope : catalog.findScope? model with
  | none =>
      rw [isScope] at found
      cases found
  | some scope =>
      rw [isScope] at found
      cases found
      refine ⟨?_, rfl⟩
      rw [Table.model, Table.ofScope, model_of_findScope? isScope, isScope]

theorem Places.association {context : Context Term} {name : String} {chain : Chain Term}
    (places : catalog.Places context)
    (followed : context.association catalog.directory name = .ok chain) :
    catalog.Places (.chain chain) := by
  obtain ⟨link, found, rfl⟩ := Context.association_eq_ok_iff.1 followed
  have found : catalog.link? context.scope name = some link := found
  have declares : catalog.Declares context.scope (.ofLink link) :=
    { link := by
        rw [← name_of_link? found] at found
        exact found
      scope := rfl
      table := rfl }
  cases context with
  | table table => exact ⟨places, Leads.nil.concat declares⟩
  | chain route => exact ⟨places.1, places.2.concat declares⟩

/-- Changing no scope and no table leads where it did. -/
theorem Places.mapTarget {context : Context Term} (places : catalog.Places context)
    {change : Table Term → Table Term} (sameScope : ∀ table, (change table).scope = table.scope)
    (sameTable : ∀ table, (change table).relation.table = table.relation.table) :
    catalog.Places (context.mapTarget change) := by
  cases context with
  | table table => exact places.change (sameScope table) (sameTable table)
  | chain chain =>
      -- Only the last hop changes, and it still leads to the same scope.
      obtain ⟨listed, leads⟩ := places
      obtain ⟨scope, earlier, declares, atEnd⟩ := leads_concat_iff.1 leads
      refine ⟨listed, ?_⟩
      have changed : catalog.Declares scope
          { chain.last with table := change chain.last.table } :=
        { link := declares.link
          scope := (sameScope _).trans declares.scope
          table := (sameTable _).trans declares.table }
      apply leads_concat_iff.2
      exact ⟨scope, earlier, changed, (sameScope _).trans atEnd⟩

theorem Obtained.places {context : Context Term} (obtained : catalog.Obtained context) :
    catalog.Places context := by
  induction obtained with
  | @table model table found => exact lists_of_table found
  | @association context name chain _ followed inductionHypothesis =>
      exact inductionHypothesis.association followed
  | withAlias _ aliasName inductionHypothesis =>
      exact inductionHypothesis.mapTarget (fun _ => rfl) fun _ => rfl
  | outer _ inductionHypothesis =>
      exact inductionHypothesis.mapTarget (fun _ => rfl) fun _ => rfl
  | inner _ inductionHypothesis =>
      exact inductionHypothesis.mapTarget (fun _ => rfl) fun _ => rfl
  | on _ condition inductionHypothesis =>
      exact inductionHypothesis.mapTarget (fun _ => rfl) fun _ => rfl

/-! ## What names determine -/

/-- A hop is reached over the hops before it, by a link from where they
lead. -/
theorem Places.declares {chain : Chain Term} (places : catalog.Places (.chain chain))
    {earlier later : List (Hop Term)} (split : chain.hops = earlier ++ hop :: later) :
    ∃ scope, catalog.Leads chain.root.scope earlier scope ∧ catalog.Declares scope hop := by
  have leads := places.2
  rw [split, List.append_cons] at leads
  obtain ⟨scope, upTo⟩ := leads.of_append
  obtain ⟨scope, before, declares, -⟩ := leads_concat_iff.1 upTo
  exact ⟨scope, before, declares⟩

/-- Two hops that are reached from one model by the same names follow the
same link, to the same table. -/
theorem Places.link_eq {chain chain' : Chain Term} (places : catalog.Places (.chain chain))
    (places' : catalog.Places (.chain chain')) (sameRoot : chain.root.model = chain'.root.model)
    {earlier later earlier' later' : List (Hop Term)}
    (split : chain.hops = earlier ++ hop :: later)
    (split' : chain'.hops = earlier' ++ hop' :: later')
    (sameNames : (earlier ++ [hop]).map Hop.name = (earlier' ++ [hop']).map Hop.name) :
    hop.link = hop'.link ∧ hop.table.relation.table = hop'.table.relation.table := by
  have sameScope : chain.root.scope = chain'.root.scope := by
    have listed := places.1.scope
    rw [sameRoot, places'.1.scope] at listed
    exact (Option.some.inj listed).symm
  obtain ⟨scope, before, declares⟩ := places.declares split
  obtain ⟨scope', before', declares'⟩ := places'.declares split'
  rw [← sameScope] at before'
  have sameLinks := ((before.concat declares).unique (before'.concat declares') sameNames).2
  have sameLink : hop.link = hop'.link := by
    rw [List.map_append, List.map_append] at sameLinks
    exact List.singleton_inj.1 (List.append_inj' sameLinks rfl).2
  exact ⟨sameLink, by rw [declares.table, declares'.table, sameLink]⟩

end Joinery.Catalog
