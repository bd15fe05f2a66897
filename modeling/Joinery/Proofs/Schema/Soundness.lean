import Joinery.Schema.Validation
import Mathlib.Data.List.Nodup

/-!
Contract: what a valid document declares.

A document is sound if its models have distinct names, its associations lead to
models that it declares, and associations whose key the target holds name that
key. These are the valid documents (`Document.validate_eq_ok_iff`). In a sound
document a name stands for one model at most, and an association for exactly
one foreign key column.

Owns: sound documents, and what validation accepts.

Does not own: which fault is reported first.
-/

namespace Joinery.Schema

/-! ## Associations -/

/-- An association that a model of a document may declare. -/
structure Association.Sound (declared : List ModelName) (association : Association) : Prop where
  target : association.target ∈ declared
  foreignKey : association.kind ≠ .belongsTo → association.foreignKey ≠ none

/-- The foreign key column as declared, or by default for an association whose
owner holds the key. -/
inductive Association.ForeignKey (association : Association) : String → Prop where
  | declared {column : String} (names : association.foreignKey = some column) :
      ForeignKey association column
  | default (owned : association.kind = .belongsTo) (absent : association.foreignKey = none) :
      ForeignKey association (association.name ++ "_id")

/-- The default is never used for a key that the target holds. -/
theorem Association.Sound.foreignKeyColumn {declared : List ModelName} {association : Association}
    (sound : association.Sound declared) :
    association.ForeignKey association.foreignKeyColumn := by
  unfold Association.foreignKeyColumn
  cases named : association.foreignKey with
  | some column => exact .declared named
  | none =>
      by_cases owned : association.kind = .belongsTo
      · exact .default owned named
      · exact absurd named (sound.foreignKey owned)

theorem checkAssociation_eq_ok_iff {declared : List ModelName} {model : Model}
    {association : Association} :
    checkAssociation declared model association = .ok () ↔ association.Sound declared := by
  unfold checkAssociation
  by_cases known : association.target ∈ declared
  · rw [if_neg (not_not.2 known)]
    by_cases keyless : association.kind ≠ .belongsTo ∧ association.foreignKey = none
    · rw [if_pos keyless]
      constructor
      · intro accepted
        cases accepted
      · intro sound
        exact absurd keyless.2 (sound.foreignKey keyless.1)
    · rw [if_neg keyless]
      constructor
      · intro _
        exact ⟨known, fun held absent => keyless ⟨held, absent⟩⟩
      · intro _
        rfl
  · rw [if_pos known]
    constructor
    · intro accepted
      cases accepted
    · intro sound
      exact absurd sound.target known

/-! ## Models -/

/-- The first association of a given name that the model declares. -/
def Model.FirstDeclares (model : Model) (name : String) (association : Association) : Prop :=
  ∃ earlier later, model.associations = earlier ++ association :: later ∧
    association.name = name ∧ ∀ other ∈ earlier, other.name ≠ name

theorem Model.association?_eq_some_iff {model : Model} {name : String}
    {association : Association} :
    model.association? name = some association ↔ model.FirstDeclares name association := by
  unfold Model.association? Model.FirstDeclares
  rw [List.find?_eq_some_iff_append]
  constructor
  · rintro ⟨named, earlier, later, split, different⟩
    exact ⟨earlier, later, split, by simpa using named,
      fun other declared => by simpa using different other declared⟩
  · rintro ⟨earlier, later, split, named, different⟩
    exact ⟨by simpa using named, earlier, later, split,
      fun other declared => by simpa using different other declared⟩

theorem Model.FirstDeclares.mem {model : Model} {name : String} {association : Association}
    (first : model.FirstDeclares name association) : association ∈ model.associations := by
  obtain ⟨earlier, later, split, -⟩ := first
  rw [split]
  exact List.mem_append_right earlier (List.mem_cons_self ..)

theorem Model.FirstDeclares.name_eq {model : Model} {name : String} {association : Association}
    (first : model.FirstDeclares name association) : association.name = name := by
  obtain ⟨earlier, later, -, named, -⟩ := first
  exact named

theorem Model.FirstDeclares.unique {model : Model} {name : String}
    {association other : Association} (first : model.FirstDeclares name association)
    (isFirst : model.FirstDeclares name other) : association = other := by
  rw [← Model.association?_eq_some_iff] at first isFirst
  exact Option.some.inj (first.symm.trans isFirst)

/-- A name that a model declares at all, it declares a first time. -/
theorem Model.exists_firstDeclares_iff {model : Model} {name : String} :
    (∃ association, model.FirstDeclares name association) ↔
      ∃ association ∈ model.associations, association.name = name := by
  simp only [← Model.association?_eq_some_iff, ← Option.isSome_iff_exists]
  unfold Model.association?
  simp

/-! ## Documents -/

structure Document.Sound (document : Document) : Prop where
  distinct : document.names.Nodup
  associations : ∀ model ∈ document.models, ∀ association ∈ model.associations,
    association.Sound document.names

/-- A check of many items passes if it passes for each. -/
theorem forM_eq_ok_iff {α : Type} {check : α → Except Fault Unit} {items : List α} :
    items.forM check = .ok () ↔ ∀ item ∈ items, check item = .ok () := by
  induction items with
  | nil => simp [List.forM, pure, Except.pure]
  | cons item items inductionHypothesis =>
      rw [List.forall_mem_cons, ← inductionHypothesis]
      show (check item >>= fun _ => items.forM check) = .ok () ↔ _
      cases check item with
      | error fault => simp [bind, Except.bind]
      | ok => simp [bind, Except.bind]

theorem checkNames_eq_ok_iff {seen names : List ModelName} :
    checkNames seen names = .ok () ↔ names.Nodup ∧ ∀ name ∈ names, name ∉ seen := by
  induction names generalizing seen with
  | nil => simp [checkNames]
  | cons name others inductionHypothesis =>
      rw [checkNames, List.nodup_cons, List.forall_mem_cons]
      split_ifs with repeated
      · simp [repeated]
      · rw [inductionHypothesis]
        constructor
        · rintro ⟨distinct, unseen⟩
          refine ⟨⟨fun again => unseen name again (List.mem_cons_self ..), distinct⟩, repeated,
            fun other isOther => ?_⟩
          exact fun before => unseen other isOther (List.mem_cons_of_mem name before)
        · rintro ⟨⟨once, distinct⟩, -, unseen⟩
          refine ⟨distinct, fun other isOther => ?_⟩
          rw [List.mem_cons, not_or]
          exact ⟨fun same => once (same ▸ isOther), unseen other isOther⟩

/-- The valid documents are the sound ones. -/
theorem Document.validate_eq_ok_iff {document : Document} :
    document.validate = .ok () ↔ document.Sound := by
  have namesAccepted : checkNames [] document.names = .ok () ↔ document.names.Nodup := by
    simp [checkNames_eq_ok_iff]
  have modelsAccepted : document.models.forM (checkModel document.names) = .ok () ↔
      ∀ model ∈ document.models, ∀ association ∈ model.associations,
        association.Sound document.names := by
    simp only [forM_eq_ok_iff, checkModel, checkAssociation_eq_ok_iff]
  unfold Document.validate
  cases checked : checkNames [] document.names with
  | error fault =>
      constructor
      · intro accepted
        cases accepted
      · intro sound
        rw [namesAccepted.2 sound.distinct] at checked
        cases checked
  | ok =>
      show document.models.forM (checkModel document.names) = .ok () ↔ _
      rw [modelsAccepted]
      constructor
      · exact fun sound => ⟨namesAccepted.1 checked, sound⟩
      · exact fun sound => sound.associations

variable {document : Document}

/-- In a sound document models of the same name are the same. -/
theorem Document.Sound.eq_of_name_eq (sound : document.Sound) {model other : Model}
    (declared : model ∈ document.models) (isDeclared : other ∈ document.models)
    (sameName : model.name = other.name) : model = other :=
  List.inj_on_of_nodup_map sound.distinct declared isDeclared sameName

/-- An association of a sound document leads to one of its models. -/
theorem Document.Sound.exists_target (sound : document.Sound) {model : Model}
    {association : Association} (declared : model ∈ document.models)
    (isDeclared : association ∈ model.associations) :
    ∃ target ∈ document.models, target.name = association.target := by
  have known := (sound.associations model declared association isDeclared).target
  exact List.mem_map.1 known

/-! ## Where associations lead -/

/-- The model that association names lead to from a root model, each name
standing for the first association that declares it. -/
inductive Document.Leads (document : Document) (root : Model) : List String → Model → Prop where
  | nil : Leads document root [] root
  | concat {names : List String} {name : String} {owner target : Model}
      {association : Association} (earlier : Leads document root names owner)
      (first : owner.FirstDeclares name association) (declared : target ∈ document.models)
      (named : target.name = association.target) :
      Leads document root (names ++ [name]) target

variable {root reached : Model} {names : List String} {name : String}

theorem Document.leads_nil_iff : document.Leads root [] reached ↔ reached = root := by
  constructor
  · generalize whole : ([] : List String) = all
    intro leads
    cases leads with
    | nil => rfl
    | concat => simp at whole
  · rintro rfl
    exact .nil

theorem Document.leads_concat_iff :
    document.Leads root (names ++ [name]) reached ↔
      ∃ owner association, document.Leads root names owner ∧
        owner.FirstDeclares name association ∧ reached ∈ document.models ∧
        reached.name = association.target := by
  constructor
  · generalize whole : names ++ [name] = all
    intro leads
    cases leads with
    | nil => simp at whole
    | concat earlier first declared named =>
        obtain ⟨rfl, rfl⟩ := List.append_singleton_inj.1 whole
        exact ⟨_, _, earlier, first, declared, named⟩
  · rintro ⟨owner, association, earlier, first, declared, named⟩
    exact earlier.concat first declared named

theorem Document.Leads.mem (leads : document.Leads root names reached)
    (declared : root ∈ document.models) : reached ∈ document.models := by
  cases leads with
  | nil => exact declared
  | concat _ _ isDeclared => exact isDeclared

end Joinery.Schema
