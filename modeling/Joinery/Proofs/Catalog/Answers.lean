import Joinery.Proofs.Catalog.Contexts
import Joinery.Proofs.Catalog.Registrations
import Joinery.Proofs.Query.Following
import Joinery.Proofs.Schema.Soundness

/-!
Contract: what the scopes of a loaded catalog answer.

A catalog is loaded from a sound document only, so an association of a scope
never leads nowhere: a scope has a link for every name that its model declares,
to the scope of the declared target. However many associations are followed and
whatever is registered before, a scope answers as its model is declared, with
the conditions and sifters that were registered last (`answers_registerAll`).

Owns: scopes of sound documents, and their links and sifters.

Does not own: what is done with links.
-/

namespace Joinery.Catalog

open Query (Link Scope Term)
open Schema (Association Document Model ModelName)

variable {catalog : Catalog} {scope : Scope} {model : Model}

/-! ## Scopes -/

/-- The scope is the one of a declared model. -/
structure Represents (catalog : Catalog) (scope : Scope) (model : Model) : Prop where
  declared : model ∈ catalog.document.models
  found : catalog.findScope? model.name.text = some scope

/-- A scope is found at the position of a model of the given name. -/
theorem exists_model?_of_findScope? {name : ModelName}
    (found : catalog.findScope? name.text = some scope) :
    ∃ model ∈ catalog.document.models, catalog.model? scope = some model ∧ model.name = name := by
  unfold findScope? position? at found
  cases isPosition : catalog.models.findIdx? fun declared => declared.name.text = name.text with
  | none => simp [isPosition] at found
  | some position =>
      obtain ⟨bound, named, -⟩ := List.findIdx?_eq_some_iff_getElem.1 isPosition
      have sameScope : scopeOf position catalog.models[position] = scope := by
        simpa [isPosition, bound] using found
      have sameName : catalog.models[position].name = name := by
        rw [ModelName.mk.injEq]
        simpa using named
      refine ⟨catalog.models[position], List.getElem_mem bound, ?_, sameName⟩
      rw [← sameScope]
      exact List.getElem?_eq_getElem bound

/-- Every declared model has a scope. -/
theorem exists_represents (declared : model ∈ catalog.document.models) :
    ∃ scope, catalog.Represents scope model := by
  have isFound :
      (catalog.models.findIdx? fun other => other.name.text = model.name.text).isSome := by
    rw [List.findIdx?_isSome, List.any_eq_true]
    exact ⟨model, declared, by simp⟩
  obtain ⟨position, isPosition⟩ := Option.isSome_iff_exists.1 isFound
  obtain ⟨bound, -⟩ := List.findIdx?_eq_some_iff_getElem.1 isPosition
  refine ⟨scopeOf position catalog.models[position], declared, ?_⟩
  simp [findScope?, position?, isPosition, bound]

section Sound

variable (sound : catalog.document.Sound)

include sound

/-- The scope of a model stands at its position, since no other model has its
name. -/
theorem Represents.model? (represents : catalog.Represents scope model) :
    catalog.model? scope = some model := by
  obtain ⟨found, isDeclared, atPosition, named⟩ := exists_model?_of_findScope? represents.found
  rw [atPosition, sound.eq_of_name_eq isDeclared represents.declared named]

/-! ## Links -/

/-- A scope has a link for the first association that its model declares under
a name, and no other. -/
theorem Represents.link?_eq_some_iff (represents : catalog.Represents scope model)
    {name : String} {link : Link Term} :
    catalog.link? scope name = some link ↔
      ∃ association target, model.FirstDeclares name association ∧
        catalog.findScope? association.target.text = some target ∧
        link =
          { name := association.name
            kind := association.kind
            target
            foreignKey := association.foreignKeyColumn
            primaryKey := association.primaryKey
            condition := catalog.conditions.find? (model.name.text, name) } := by
  simp only [link?, represents.model? sound, Option.bind_eq_bind, Option.bind_some,
    Option.bind_eq_some_iff, Model.association?_eq_some_iff, Option.some_inj]
  constructor
  · rintro ⟨association, first, target, isTarget, rfl⟩
    exact ⟨association, target, first, isTarget, rfl⟩
  · rintro ⟨association, target, first, isTarget, rfl⟩
    exact ⟨association, first, target, isTarget, rfl⟩

/-- The target of a declared association has a scope. -/
theorem Represents.exists_target (represents : catalog.Represents scope model)
    {name : String} {association : Association} (first : model.FirstDeclares name association) :
    ∃ target targetModel, targetModel.name = association.target ∧
      catalog.Represents target targetModel := by
  obtain ⟨targetModel, declared, named⟩ := sound.exists_target represents.declared first.mem
  obtain ⟨target, isTarget⟩ := exists_represents declared
  exact ⟨target, targetModel, named, isTarget⟩

/-! ## Where links lead -/

/-- One link leads to the model that is declared as its target. -/
theorem Represents.link_target_iff (represents : catalog.Represents scope model)
    {name : String} {next : Scope} :
    (catalog.link? scope name).map Link.target = some next ↔
      ∃ association target, model.FirstDeclares name association ∧
        target.name = association.target ∧ catalog.Represents next target := by
  rw [Option.map_eq_some_iff]
  constructor
  · rintro ⟨link, isLink, rfl⟩
    obtain ⟨association, target, first, isTarget, rfl⟩ :=
      (represents.link?_eq_some_iff sound).1 isLink
    obtain ⟨targetModel, declared, -, named⟩ := exists_model?_of_findScope? isTarget
    rw [← named] at isTarget
    exact ⟨association, targetModel, first, named, declared, isTarget⟩
  · rintro ⟨association, target, first, named, isTarget⟩
    have found := isTarget.found
    rw [named] at found
    exact ⟨_, (represents.link?_eq_some_iff sound).2 ⟨association, next, first, found, rfl⟩, rfl⟩

/-- Names lead from the scope of a model to the scopes of the models that they
lead to in the document. -/
theorem Represents.lead?_eq_some_iff {start reached : Scope} {root : Model}
    (represents : catalog.Represents start root) {names : List String} :
    catalog.directory.lead? start names = some reached ↔
      ∃ model, catalog.document.Leads root names model ∧ catalog.Represents reached model := by
  induction names using List.reverseRecOn generalizing reached with
  | nil =>
      rw [Query.Directory.lead?_nil, Option.some_inj]
      simp only [Document.leads_nil_iff]
      constructor
      · rintro rfl
        exact ⟨root, rfl, represents⟩
      · rintro ⟨model, rfl, other⟩
        exact Option.some.inj (represents.found.symm.trans other.found)
  | append_singleton names name inductionHypothesis =>
      rw [Query.Directory.lead?_concat, Option.bind_eq_some_iff]
      constructor
      · rintro ⟨middle, leads, step⟩
        obtain ⟨owner, leadsTo, isOwner⟩ := inductionHypothesis.1 leads
        obtain ⟨association, target, first, named, isTarget⟩ :=
          (isOwner.link_target_iff sound).1 step
        exact ⟨target, leadsTo.concat first isTarget.declared named, isTarget⟩
      · rintro ⟨model, leadsTo, isTarget⟩
        obtain ⟨owner, association, earlier, first, -, named⟩ := Document.leads_concat_iff.1 leadsTo
        obtain ⟨middle, isOwner⟩ := exists_represents (earlier.mem represents.declared)
        exact ⟨middle, inductionHypothesis.2 ⟨owner, earlier, isOwner⟩,
          (isOwner.link_target_iff sound).2 ⟨association, model, first, named, isTarget⟩⟩

end Sound

/-! ## Answers -/

/-- The link is as the association is declared, and is joined on the condition
that was registered last for it. -/
structure Describes (catalog : Catalog) (registered : List Registration) (model : Model)
    (association : Association) (link : Link Term) : Prop where
  name : link.name = association.name
  kind : link.kind = association.kind
  target : ∃ target, target.name = association.target ∧ catalog.Represents link.target target
  foreignKey : association.ForeignKey link.foreignKey
  primaryKey : link.primaryKey = association.primaryKey
  condition : link.condition =
    Registration.lastCondition? (model.name.text, association.name) registered

/-- The scope answers for a model as the document declares it and as was
registered. -/
structure Answers (catalog : Catalog) (registered : List Registration) (scope : Scope)
    (model : Model) : Prop where
  named : scope.model = model.name.text
  atPosition : catalog.model? scope = some model
  declares : ∀ name, (catalog.directory.link? scope name).isSome ↔
    ∃ association ∈ model.associations, association.name = name
  describes : ∀ name link, catalog.directory.link? scope name = some link →
    ∃ association, model.FirstDeclares name association ∧
      catalog.Describes registered model association link
  sifter : ∀ name, catalog.directory.sifter? scope name =
    Registration.lastSifter? (model.name.text, name) registered

/-- A catalog that was empty before the registrations answers as it should. -/
theorem Represents.answers {loaded : Catalog} {registered : List Registration}
    (sound : catalog.document.Sound) (extended : loaded.Extended registered catalog)
    (noSifters : loaded.sifters = []) (noConditions : loaded.conditions = [])
    (represents : catalog.Represents scope model) : catalog.Answers registered scope model where
  named := model_of_findScope? represents.found
  atPosition := represents.model? sound
  declares := fun name => by
    rw [← Model.exists_firstDeclares_iff, Option.isSome_iff_exists]
    constructor
    · rintro ⟨link, isLink⟩
      obtain ⟨association, -, first, -⟩ := (represents.link?_eq_some_iff sound).1 isLink
      exact ⟨association, first⟩
    · rintro ⟨association, first⟩
      obtain ⟨target, targetModel, named, isTarget⟩ := represents.exists_target sound first
      have leads := (represents.link_target_iff sound).2
        ⟨association, targetModel, first, named, isTarget⟩
      obtain ⟨link, isLink, -⟩ := Option.map_eq_some_iff.1 leads
      exact ⟨link, isLink⟩
  describes := fun name link isLink => by
    obtain ⟨association, targetModel, first, named, isTarget⟩ :=
      (represents.link_target_iff sound).1 (Option.map_eq_some_iff.2 ⟨link, isLink, rfl⟩)
    obtain ⟨other, target, isFirst, -, rfl⟩ := (represents.link?_eq_some_iff sound).1 isLink
    obtain rfl := first.unique isFirst
    have isSound := sound.associations model represents.declared association first.mem
    refine ⟨association, first, ?_⟩
    exact
      { name := rfl
        kind := rfl
        target := ⟨targetModel, named, isTarget⟩
        foreignKey := isSound.foreignKeyColumn
        primaryKey := rfl
        condition := by
          show catalog.conditions.find? (model.name.text, name) = _
          rw [extended.conditions, noConditions, first.name_eq]
          exact Option.or_none }
  sifter := fun name => by
    show catalog.sifters.find? (scope.model, name) = _
    rw [extended.sifters, noSifters, model_of_findScope? represents.found]
    exact Option.or_none

/-- Only sound documents are loaded, and nothing is registered at first. -/
theorem ofDocument_eq_ok {document : Document} {loaded : Catalog}
    (isLoaded : (ofDocument document).value = .ok loaded) :
    document.Sound ∧ loaded = { document } := by
  unfold ofDocument at isLoaded
  cases valid : document.validate with
  | error fault =>
      rw [valid] at isLoaded
      cases isLoaded
  | ok =>
      rw [valid] at isLoaded
      cases isLoaded
      exact ⟨Document.validate_eq_ok_iff.1 valid, rfl⟩

/-- Just those registrations succeed whose names the document declares. From the
scope of a declared model, association names lead to just those models to which
they lead in the document, whatever was registered. A scope that is reached
answers as its model is declared, with what was registered last with success. -/
theorem answers_registerAll {document : Document} {loaded : Catalog}
    (isLoaded : (ofDocument document).value = .ok loaded) (registrations : List Registration)
    {root : Model} (declared : root ∈ document.models) :
    let catalog := loaded.registerAll registrations
    let registered := loaded.accepted registrations
    registered = registrations.filter (Registration.isKnown document) ∧
    ∃ start, catalog.scope root.name.text = .ok start ∧ ∀ names,
      (∀ reached, catalog.directory.lead? start names = some reached →
        ∃ model, document.Leads root names model ∧ catalog.Answers registered reached model) ∧
      (∀ model, document.Leads root names model →
        ∃ reached, catalog.directory.lead? start names = some reached ∧
          catalog.Answers registered reached model) := by
  intro catalog registered
  obtain ⟨sound, rfl⟩ := ofDocument_eq_ok isLoaded
  have extended := extended_registerAll { document } registrations
  have sameDocument : catalog.document = document := extended.document
  have stillSound : catalog.document.Sound := by rwa [sameDocument]
  obtain ⟨start, isStart⟩ : ∃ start, catalog.Represents start root :=
    exists_represents (by rwa [sameDocument])
  have answers {scope : Scope} {model : Model} (represents : catalog.Represents scope model) :
      catalog.Answers registered scope model :=
    represents.answers stillSound extended rfl rfl
  refine ⟨accepted_eq_filter { document } registrations, start, ?_,
    fun names => ⟨fun reached leads => ?_, fun model leadsTo => ?_⟩⟩
  · unfold Catalog.scope
    rw [isStart.found]
  · obtain ⟨model, leadsTo, isReached⟩ := (isStart.lead?_eq_some_iff stillSound).1 leads
    rw [sameDocument] at leadsTo
    exact ⟨model, leadsTo, answers isReached⟩
  · rw [← sameDocument] at leadsTo declared
    obtain ⟨reached, isReached⟩ := exists_represents (leadsTo.mem declared)
    exact ⟨reached, (isStart.lead?_eq_some_iff stillSound).2 ⟨model, leadsTo, isReached⟩,
      answers isReached⟩

end Joinery.Catalog

namespace Joinery.Firm

open Schema (Document Model)

def department : Model :=
  { name := ⟨"Department"⟩
    table := "departments"
    associations := [.hasMany "employees" ⟨"Employee"⟩ "department_id"] }

/-- The second manager is never found. -/
def employee : Model :=
  { name := ⟨"Employee"⟩
    table := "employees"
    associations :=
      [.belongsTo "manager" ⟨"Employee"⟩, .belongsTo "manager" ⟨"Department"⟩] }

def document : Document :=
  { models := [department, employee] }

/-- The second condition replaces the first one, and the third registration
fails. -/
def registrations : List Catalog.Registration :=
  [ .condition "Employee" "manager" (.sql "FALSE"),
    .condition "Employee" "manager" (.sql "TRUE"),
    .condition "Employee" "boss" (.sql "FALSE") ]

/-- Managers lead from employees to employees. -/
theorem leads_managers : document.Leads department ["employees", "manager"] employee := by
  have isDeclared : employee ∈ document.models := by simp [document]
  have first : department.FirstDeclares "employees" (.hasMany "employees" ⟨"Employee"⟩
      "department_id") := Model.association?_eq_some_iff.1 rfl
  have again : employee.FirstDeclares "manager" (.belongsTo "manager" ⟨"Employee"⟩) :=
    Model.association?_eq_some_iff.1 rfl
  exact (Document.Leads.nil.concat first isDeclared rfl).concat again isDeclared rfl

theorem managers_answered :
    (Catalog.ofDocument document).value = .ok { document } ∧
    department ∈ document.models ∧
    Catalog.accepted { document } registrations = registrations.take 2 ∧
    ∃ start, (Catalog.registerAll { document } registrations).scope "Department" = .ok start ∧
      ∃ reached, (Catalog.registerAll { document } registrations).directory.lead? start
          ["employees", "manager"] = some reached ∧
        (Catalog.registerAll { document } registrations).Answers
          (Catalog.accepted { document } registrations) reached employee := by
  have isLoaded : (Catalog.ofDocument document).value = .ok { document } := rfl
  have isDeclared : department ∈ document.models := by simp [document]
  obtain ⟨known, start, isStart, answers⟩ :=
    Catalog.answers_registerAll isLoaded registrations isDeclared
  exact ⟨isLoaded, isDeclared, known.trans rfl, start, isStart,
    (answers _).2 employee leads_managers⟩

end Joinery.Firm
