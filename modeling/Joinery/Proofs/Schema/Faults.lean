import Joinery.Proofs.Schema.Soundness

/-!
Contract: which fault of a document is reported.

A document that is not sound has a first fault. If the name of a model occurs
again, it is the first such repetition, whatever the associations are. Else it
is the fault of the first association in document order that is not sound, and
for an association with two faults the undeclared target. Validation reports
this fault and no other (`Document.validate_reports`).

Owns: first faults, and what validation reports.

Does not own: which documents are sound.
-/

namespace Joinery.Schema

/-! ## First faults -/

/-- The fault of an association that a model declares. A missing foreign key
counts only if the target is declared. -/
inductive Association.FaultOf (declared : List ModelName) (model : Model)
    (association : Association) : Fault → Prop where
  | unknownTarget (undeclared : association.target ∉ declared) :
      FaultOf declared model association
        (.unknownTarget model.name.text association.name association.target.text)
  | missingForeignKey (known : association.target ∈ declared)
      (held : association.kind = .hasOne ∨ association.kind = .hasMany)
      (absent : association.foreignKey = none) :
      FaultOf declared model association (.missingForeignKey model.name.text association.name)

/-- The fault of a document that comes before all others: the first model
whose name occurred before, or else the first association with a fault. -/
inductive Document.FirstFault (document : Document) : Fault → Prop where
  | repeated {earlier later : List Model} {model : Model}
      (split : document.models = earlier ++ model :: later)
      (distinctBefore : (earlier.map Model.name).Nodup)
      (again : model.name ∈ earlier.map Model.name) :
      FirstFault document (.duplicateModel model.name.text)
  | association {earlier later : List Model} {model : Model}
      {before after : List Association} {association : Association} {fault : Fault}
      (distinct : document.names.Nodup)
      (split : document.models = earlier ++ model :: later)
      (earlierSound : ∀ other ∈ earlier, ∀ association ∈ other.associations,
        association.Sound document.names)
      (within : model.associations = before ++ association :: after)
      (beforeSound : ∀ other ∈ before, other.Sound document.names)
      (faulty : association.FaultOf document.names model fault) :
      FirstFault document fault

/-! ## Faults of the single checks -/

variable {declared seen names : List ModelName} {model : Model} {association : Association}
  {fault : Fault}

theorem ne_belongsTo_iff {kind : AssociationKind} :
    kind ≠ .belongsTo ↔ kind = .hasOne ∨ kind = .hasMany := by
  cases kind <;> simp

theorem checkAssociation_eq_error_iff :
    checkAssociation declared model association = .error fault ↔
      association.FaultOf declared model fault := by
  unfold checkAssociation
  constructor
  · intro refused
    split_ifs at refused with known keyless
    · cases refused
      exact .missingForeignKey known (ne_belongsTo_iff.1 keyless.1) keyless.2
    · cases refused
      exact .unknownTarget known
  · intro faulty
    cases faulty with
    | unknownTarget undeclared => rw [if_pos undeclared]
    | missingForeignKey known held absent =>
        rw [if_neg (not_not.2 known), if_pos ⟨ne_belongsTo_iff.2 held, absent⟩]

/-- A check of many items fails as it does for the first item that fails it. -/
theorem forM_eq_error_iff {α : Type} {check : α → Except Fault Unit} {items : List α} :
    items.forM check = .error fault ↔
      ∃ earlier item later, items = earlier ++ item :: later ∧
        (∀ other ∈ earlier, check other = .ok ()) ∧ check item = .error fault := by
  induction items with
  | nil => simp [List.forM, pure, Except.pure]
  | cons first items inductionHypothesis =>
      show (check first >>= fun _ => items.forM check) = .error fault ↔ _
      cases checked : check first with
      | error cause =>
          show Except.error cause = Except.error fault ↔ _
          constructor
          · rintro ⟨⟩
            exact ⟨[], first, items, rfl, by simp, checked⟩
          · rintro ⟨earlier, item, later, split, passed, failed⟩
            -- Nothing passes before the first item, since that one fails.
            cases earlier with
            | nil =>
                cases split
                rw [← checked, failed]
            | cons other earlier =>
                cases split
                rw [passed first (List.mem_cons_self ..)] at checked
                cases checked
      | ok =>
          show items.forM check = .error fault ↔ _
          rw [inductionHypothesis]
          constructor
          · rintro ⟨earlier, item, later, rfl, passed, failed⟩
            exact ⟨first :: earlier, item, later, rfl,
              List.forall_mem_cons.2 ⟨checked, passed⟩, failed⟩
          · rintro ⟨earlier, item, later, split, passed, failed⟩
            cases earlier with
            | nil =>
                cases split
                rw [failed] at checked
                cases checked
            | cons other earlier =>
                cases split
                exact ⟨earlier, item, later, rfl, (List.forall_mem_cons.1 passed).2, failed⟩

/-- Names are refused at the first one that occurred before, after names that
are accepted. -/
theorem checkNames_eq_error_iff :
    checkNames seen names = .error fault ↔
      ∃ earlier name later, names = earlier ++ name :: later ∧
        checkNames seen earlier = .ok () ∧ (name ∈ seen ∨ name ∈ earlier) ∧
        fault = .duplicateModel name.text := by
  induction names generalizing seen with
  | nil => simp [checkNames]
  | cons first others inductionHypothesis =>
      have refused (repeated : first ∈ seen) (names : List ModelName) :
          checkNames seen (first :: names) = .error (.duplicateModel first.text) := by
        rw [checkNames, if_pos repeated]
      have goesOn (isNew : first ∉ seen) (names : List ModelName) :
          checkNames seen (first :: names) = checkNames (first :: seen) names := by
        rw [checkNames, if_neg isNew]
      by_cases repeated : first ∈ seen
      · rw [refused repeated]
        constructor
        · rintro ⟨⟩
          exact ⟨[], first, others, rfl, rfl, .inl repeated, rfl⟩
        · rintro ⟨earlier, name, later, split, accepted, -, rfl⟩
          cases earlier with
          | nil =>
              cases split
              rfl
          | cons other earlier =>
              cases split
              rw [refused repeated] at accepted
              cases accepted
      · rw [goesOn repeated, inductionHypothesis]
        -- The first name is seen from here on, so it counts as an earlier one.
        have occurred_iff (name : ModelName) (earlier : List ModelName) :
            name ∈ first :: seen ∨ name ∈ earlier ↔ name ∈ seen ∨ name ∈ first :: earlier := by
          simp only [List.mem_cons]
          exact or_assoc.trans or_left_comm
        constructor
        · rintro ⟨earlier, name, later, rfl, accepted, again, rfl⟩
          exact ⟨first :: earlier, name, later, rfl, (goesOn repeated earlier).trans accepted,
            (occurred_iff name earlier).1 again, rfl⟩
        · rintro ⟨earlier, name, later, split, accepted, again, rfl⟩
          cases earlier with
          | nil =>
              cases split
              exact absurd again (by simpa using repeated)
          | cons other earlier =>
              cases split
              exact ⟨earlier, name, later, rfl, (goesOn repeated earlier).symm.trans accepted,
                (occurred_iff name earlier).2 again, rfl⟩

/-! ## The fault of a document -/

/-- The names of a document are refused at its first repeated model. -/
theorem Document.checkNames_eq_error_iff {document : Document} :
    checkNames [] document.names = .error fault ↔
      ∃ earlier model later, document.models = earlier ++ model :: later ∧
        (earlier.map Model.name).Nodup ∧ model.name ∈ earlier.map Model.name ∧
        fault = .duplicateModel model.name.text := by
  rw [Schema.checkNames_eq_error_iff]
  simp only [checkNames_eq_ok_iff]
  constructor
  · rintro ⟨earlier, name, later, split, ⟨distinct, -⟩, again, rfl⟩
    obtain ⟨earlier, rest, models, rfl, atRest⟩ := List.map_eq_append_iff.1 split
    obtain ⟨model, later, rfl, rfl, -⟩ := List.map_eq_cons_iff.1 atRest
    exact ⟨earlier, model, later, models, distinct, by simpa using again, rfl⟩
  · rintro ⟨earlier, model, later, split, distinct, again, rfl⟩
    refine ⟨earlier.map Model.name, model.name, later.map Model.name, ?_, ⟨distinct, by simp⟩,
      .inr again, rfl⟩
    simp [names, split]

/-- The associations of a document are refused at its first faulty one. -/
theorem Document.checkModels_eq_error_iff {document : Document} :
    document.models.forM (checkModel document.names) = .error fault ↔
      ∃ earlier model later, document.models = earlier ++ model :: later ∧
        (∀ other ∈ earlier, ∀ association ∈ other.associations,
          association.Sound document.names) ∧
        ∃ before association after, model.associations = before ++ association :: after ∧
          (∀ other ∈ before, other.Sound document.names) ∧
          association.FaultOf document.names model fault := by
  simp only [forM_eq_error_iff, forM_eq_ok_iff, checkModel, checkAssociation_eq_ok_iff,
    checkAssociation_eq_error_iff]

/-- Validation accepts the sound documents, and of any other document it
reports the first fault. -/
theorem Document.validate_reports (document : Document) :
    (document.validate = .ok () ↔ document.Sound) ∧
    ∀ fault, document.validate = .error fault ↔ document.FirstFault fault := by
  refine ⟨validate_eq_ok_iff, fun fault => ?_⟩
  unfold validate
  cases checked : checkNames [] document.names with
  | error cause =>
      show Except.error cause = Except.error fault ↔ _
      constructor
      · rintro ⟨⟩
        obtain ⟨earlier, model, later, split, distinct, again, rfl⟩ :=
          checkNames_eq_error_iff.1 checked
        exact .repeated split distinct again
      · intro first
        cases first with
        | repeated split distinct again =>
            rw [← checked]
            exact checkNames_eq_error_iff.2 ⟨_, _, _, split, distinct, again, rfl⟩
        | association distinct =>
            rw [checkNames_eq_ok_iff.2 ⟨distinct, by simp⟩] at checked
            cases checked
  | ok =>
      show document.models.forM (checkModel document.names) = .error fault ↔ _
      obtain ⟨distinct, -⟩ := checkNames_eq_ok_iff.1 checked
      rw [checkModels_eq_error_iff]
      constructor
      · rintro ⟨earlier, model, later, split, earlierSound, before, association, after, within,
          beforeSound, faulty⟩
        exact .association distinct split earlierSound within beforeSound faulty
      · intro first
        cases first with
        | repeated split distinctBefore again =>
            rw [checkNames_eq_error_iff.2 ⟨_, _, _, split, distinctBefore, again, rfl⟩] at checked
            cases checked
        | association _ split earlierSound within beforeSound faulty =>
            exact ⟨_, _, _, split, earlierSound, _, _, _, within, beforeSound, faulty⟩

/-- A repeated name is reported before the undeclared target of an earlier
model. -/
example :
    Document.validate
      { models :=
        [ { name := ⟨"Order"⟩
            table := "orders"
            associations := [.belongsTo "customer" ⟨"Customer"⟩] },
          { name := ⟨"Order"⟩, table := "returns" } ] } =
      .error (.duplicateModel "Order") := by
  rfl

end Joinery.Schema
