import Joinery.Proofs.Catalog.Answers
import Joinery.Proofs.Query.Members

/-!
Contract: the ways to look up a name agree.

A name can be looked up as any member, as a column only, or as an association
only, with or without an error if there is none. In a context over a loaded
catalog each of these ways finds just what the model of the context declares,
columns before associations, and where two of them find something they find the
same (`lookups_agree`).

Owns: the agreement of lookups with one another and with the document.

Does not own: dotted paths, and what registering changes.
-/

namespace Joinery

namespace Catalog

open Query (Chain Context Hop Link Term)
open Schema (Document Model)

variable {catalog : Catalog}

/-- A scope has the columns by name that it lists. -/
theorem hasColumn_iff {scope : Query.Scope} {name : String} :
    catalog.directory.hasColumn scope name = true ↔
      name ∈ catalog.directory.columnNames scope := by
  unfold directory
  cases isModel : catalog.model? scope <;> simp [isModel, Model.hasColumn]

/-- A context answers for a name as its model declares it, in each of the ways in
which the name can be looked up. -/
structure LooksUp (catalog : Catalog) (context : Context Term) (model : Model) (name : String) :
    Prop where
  columnNames : catalog.directory.columnNames context.scope = model.columns
  /-- Among all members a column comes first, and it is one of the context itself. -/
  column : (context.resolve catalog.directory name).value = some (.column ⟨context, name⟩) ↔
    name ∈ catalog.directory.columnNames context.scope
  noOtherColumn : ∀ found, (context.resolve catalog.directory name).value = some (.column found) →
    found = ⟨context, name⟩
  /-- A declared association is a member of its name unless a column is. -/
  chain : (∃ chain, (context.resolve catalog.directory name).value = some (.chain chain)) ↔
    name ∉ catalog.directory.columnNames context.scope ∧
      ∃ association ∈ model.associations, association.name = name
  sameChain : ∀ chain, (context.resolve catalog.directory name).value = some (.chain chain) →
    context.association catalog.directory name = .ok chain
  /-- Among associations it is found in any case. -/
  association : (∃ chain, context.association catalog.directory name = .ok chain) ↔
    ∃ association ∈ model.associations, association.name = name
  /-- The chain goes one hop further than the context. -/
  newHop : ∀ chain, context.association catalog.directory name = .ok chain →
    chain.root = context.root ∧
      ∃ link, catalog.directory.link? context.scope name = some link ∧ link.name = name ∧
        chain.hops = context.hops ++ [.ofLink link]
  onlyColumns : ∀ found, context.column catalog.directory name = .ok found ↔
    (context.resolve catalog.directory name).value = some (.column found)
  /-- The error tells of the model of the last hop. -/
  get : (context.get catalog.directory name).value =
    ((context.resolve catalog.directory name).value.map Except.ok).getD
      (.error (.columnNotFound
        ((context.hops.getLast?.map Hop.table).getD context.root).model name))
  call : context.call catalog.directory name [] = context.get catalog.directory name

theorem Answers.looksUp {registered : List Registration} {context : Context Term} {model : Model}
    (answers : catalog.Answers registered context.scope model) (name : String) :
    catalog.LooksUp context model name where
  columnNames := by
    show ((catalog.model? context.scope).map Model.columns).getD [] = model.columns
    rw [answers.atPosition]
    rfl
  column := by
    rw [Context.resolve_eq_column_iff, hasColumn_iff]
    exact and_iff_left rfl
  noOtherColumn found isFound := (Context.resolve_eq_column_iff.1 isFound).2
  chain := by
    simp only [Context.resolve_eq_chain_iff, hasColumn_iff, exists_and_left]
    rw [Context.exists_association_iff, answers.declares]
  sameChain chain isFound := (Context.resolve_eq_chain_iff.1 isFound).2
  association := Context.exists_association_iff.trans (answers.declares name)
  newHop chain isFound := by
    obtain ⟨link, isLink, rfl⟩ := Context.association_eq_ok_iff.1 isFound
    exact ⟨Context.root_follow context link, link, isLink, name_of_link? isLink,
      Context.hops_follow context link⟩
  onlyColumns found := by
    rw [Context.column_eq_ok_iff, Context.resolve_eq_column_iff]
  get := by
    rw [Context.value_get, ← Context.target_eq]
    rfl
  call := rfl

/-- The scope that a loaded catalog gives for a name is that of a model of the
document. -/
theorem exists_represents_of_scope {origin : String} {scope : Query.Scope}
    (isScope : catalog.scope origin = .ok scope) :
    ∃ model, model.name.text = scope.model ∧ catalog.Represents scope model := by
  unfold Catalog.scope at isScope
  cases found : catalog.findScope? origin with
  | none =>
      rw [found] at isScope
      cases isScope
  | some given =>
      rw [found] at isScope
      cases isScope
      have ofName : catalog.findScope? (Schema.ModelName.mk origin).text = some scope := found
      obtain ⟨model, declared, -, named⟩ := exists_model?_of_findScope? ofName
      have sameText : model.name.text = origin := congrArg Schema.ModelName.text named
      refine ⟨model, sameText.trans (model_of_findScope? found).symm, declared, ?_⟩
      rw [sameText, found]

/-- In a context over a loaded catalog, whatever was registered, all ways to look
up a name agree, and they find what the model of the context declares. -/
theorem lookups_agree {document : Document} {loaded : Catalog}
    (isLoaded : (ofDocument document).value = .ok loaded) (registrations : List Registration)
    {context : Context Term} {origin : String}
    (isScope : (loaded.registerAll registrations).scope origin = .ok context.scope)
    (name : String) :
    ∃ model ∈ document.models, model.name.text = context.model ∧
      (loaded.registerAll registrations).LooksUp context model name := by
  obtain ⟨sound, rfl⟩ := ofDocument_eq_ok isLoaded
  have extended := extended_registerAll { document } registrations
  have sameDocument : (registerAll { document } registrations).document = document :=
    extended.document
  obtain ⟨model, named, represents⟩ := exists_represents_of_scope isScope
  have answers : (registerAll { document } registrations).Answers
      (accepted { document } registrations) context.scope model :=
    represents.answers (by rwa [sameDocument]) extended rfl rfl
  have declared := represents.declared
  rw [sameDocument] at declared
  exact ⟨model, declared, named, answers.looksUp name⟩

end Catalog

namespace Firm

open Query (Chain Context Term)
open Schema (Document Model)

/-- A model with a column that has the name of an association. -/
def clerk : Model :=
  { name := ⟨"Clerk"⟩
    table := "clerks"
    columns := ["id", "mentor"]
    associations := [.belongsTo "mentor" ⟨"Clerk"⟩] }

def office : Document :=
  { models := [department, employee, clerk] }

/-- The chain to the mentor of a clerk, under an alias. -/
def senior : Chain Term :=
  let scope := Catalog.scopeOf 2 clerk
  let mentor := Chain.start (.ofScope scope)
    { name := "mentor", kind := .belongsTo, target := scope, foreignKey := "mentor_id"
      primaryKey := "id" }
  mentor.mapTarget (·.withAlias "senior")

/-- The mentor of a senior is a column as a member and a chain of two hops as an
association. -/
theorem mentor_looked_up :
    (Catalog.ofDocument office).value = .ok { document := office } ∧
    (Catalog.registerAll { document := office } []).scope "Clerk" =
      .ok (Context.chain senior).scope ∧
    (Context.resolve (Catalog.directory { document := office }) (.chain senior) "mentor").value =
      some (.column ⟨.chain senior, "mentor"⟩) ∧
    ∃ chain, Context.association (Catalog.directory { document := office }) (.chain senior)
        "mentor" = .ok chain ∧ chain.root = senior.root ∧ chain.hops.length = 2 := by
  have isLoaded : (Catalog.ofDocument office).value = .ok { document := office } := rfl
  have isScope : (Catalog.registerAll { document := office } []).scope "Clerk" =
      .ok (Context.chain senior).scope := rfl
  obtain ⟨model, isModel, named, looksUp⟩ :=
    Catalog.lookups_agree isLoaded [] isScope "mentor"
  obtain rfl : model = clerk := by
    have differ : ∀ other ∈ office.models, other.name.text = "Clerk" → other = clerk := by decide
    exact differ model isModel named
  have isColumn : "mentor" ∈ clerk.columns := by decide
  rw [← looksUp.columnNames] at isColumn
  have isDeclared : ∃ association ∈ clerk.associations, association.name = "mentor" := by
    simp [clerk, Schema.Association.belongsTo]
  obtain ⟨chain, isChain⟩ := looksUp.association.2 isDeclared
  obtain ⟨sameRoot, link, -, -, further⟩ := looksUp.newHop chain isChain
  refine ⟨isLoaded, isScope, looksUp.column.2 isColumn, chain, isChain, sameRoot, ?_⟩
  rw [further]
  rfl

end Firm

end Joinery
