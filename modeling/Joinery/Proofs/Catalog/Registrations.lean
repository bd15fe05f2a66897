import Joinery.Catalog

/-!
Contract: what registering does to a catalog.

Sifters and conditions are registered one after the other, and a registration
that fails is passed over. Whatever is registered, the document stays as it was,
and under each model and name the catalog has what was registered there last
with success, else what it had before (`extended_registerAll`). Which ones
succeed is for the document alone to say (`accepted_eq_filter`).

Owns: sequences of registrations, and what is found after them.

Does not own: what a scope answers.
-/

namespace Joinery.Catalog

open Query (Error Sifter Term)

/-- A registration on a catalog: of a sifter under a model and a name, or of a
condition under a model and an association. -/
inductive Registration where
  | sifter (model name : String) (sifter : Sifter)
  | condition (model association : String) (condition : Term)

namespace Registration

/-- The sifter that is registered under a given model and name. -/
def sifterFor? (key : String × String) : Registration → Option Sifter
  | .sifter model name built => if (model, name) = key then some built else none
  | .condition .. => none

/-- The condition that is registered under a given model and association. -/
def conditionFor? (key : String × String) : Registration → Option Term
  | .sifter .. => none
  | .condition model association term =>
      if (model, association) = key then some term else none

/-- The document declares the model, and the association if there is one. -/
def isKnown (document : Schema.Document) : Registration → Bool
  | .sifter model _ _ => document.models.any fun declared => declared.name.text = model
  | .condition model association _ =>
      ((document.model? model).bind fun declared => declared.association? association).isSome

/-- The last sifter that is registered under a given model and name. -/
def lastSifter? (key : String × String) (registrations : List Registration) : Option Sifter :=
  (registrations.filterMap (sifterFor? key)).getLast?

/-- The last condition that is registered under a given model and
association. -/
def lastCondition? (key : String × String) (registrations : List Registration) : Option Term :=
  (registrations.filterMap (conditionFor? key)).getLast?

theorem lastSifter?_append (key : String × String) (earlier later : List Registration) :
    lastSifter? key (earlier ++ later) = (lastSifter? key later).or (lastSifter? key earlier) := by
  unfold lastSifter?
  rw [List.filterMap_append, List.getLast?_append]

theorem lastCondition?_append (key : String × String) (earlier later : List Registration) :
    lastCondition? key (earlier ++ later) =
      (lastCondition? key later).or (lastCondition? key earlier) := by
  unfold lastCondition?
  rw [List.filterMap_append, List.getLast?_append]

@[simp]
theorem lastSifter?_singleton (key : String × String) (registration : Registration) :
    lastSifter? key [registration] = registration.sifterFor? key := by
  unfold lastSifter?
  cases found : registration.sifterFor? key with
  | none => simp [found]
  | some sifter => simp [found]

@[simp]
theorem lastCondition?_singleton (key : String × String) (registration : Registration) :
    lastCondition? key [registration] = registration.conditionFor? key := by
  unfold lastCondition?
  cases found : registration.conditionFor? key with
  | none => simp [found]
  | some condition => simp [found]

end Registration

/-! ## Registering -/

def register (catalog : Catalog) : Registration → Except Error Catalog
  | .sifter model name sifter => catalog.registerSifter model name sifter
  | .condition model association condition =>
      catalog.registerCondition model association condition

/-- The catalog after some registrations, of which those that fail are passed
over. -/
def registerAll (catalog : Catalog) : List Registration → Catalog
  | [] => catalog
  | registration :: later =>
      match catalog.register registration with
      | .ok next => next.registerAll later
      | .error _ => catalog.registerAll later

/-- Those of some registrations that succeed, in order. -/
def accepted (catalog : Catalog) : List Registration → List Registration
  | [] => []
  | registration :: later =>
      match catalog.register registration with
      | .ok next => registration :: next.accepted later
      | .error _ => catalog.accepted later

/-! ## What is found -/

/-- What a catalog has become through successful registrations: under each
model and name it has the last one, or else what was there before. -/
structure Extended (catalog : Catalog) (registrations : List Registration) (next : Catalog) :
    Prop where
  document : next.document = catalog.document
  sifters : ∀ key, next.sifters.find? key =
    (Registration.lastSifter? key registrations).or (catalog.sifters.find? key)
  conditions : ∀ key, next.conditions.find? key =
    (Registration.lastCondition? key registrations).or (catalog.conditions.find? key)

variable {catalog middle next : Catalog}

theorem Extended.refl (catalog : Catalog) : catalog.Extended [] catalog where
  document := rfl
  sifters := fun _ => rfl
  conditions := fun _ => rfl

theorem Extended.trans {earlier later : List Registration} (first : catalog.Extended earlier middle)
    (second : middle.Extended later next) : catalog.Extended (earlier ++ later) next where
  document := second.document.trans first.document
  sifters := fun key => by
    rw [second.sifters, first.sifters, Registration.lastSifter?_append, Option.or_assoc]
  conditions := fun key => by
    rw [second.conditions, first.conditions, Registration.lastCondition?_append, Option.or_assoc]

theorem find?_insert {α : Type} (key other : String × String) (value : α) (registry : Registry α) :
    (registry.insert key value).find? other =
      (if key = other then some value else none).or (registry.find? other) := by
  by_cases same : key = other
  · subst same
    rw [Registry.find?_insert_self, if_pos rfl, Option.some_or]
  · rw [Registry.find?_insert_of_ne (Ne.symm same), if_neg same, Option.none_or]

/-- A registration that succeeds is found under its model and name, and nothing
else changes. -/
theorem extended_of_register {registration : Registration}
    (registered : catalog.register registration = .ok next) :
    catalog.Extended [registration] next := by
  cases registration with
  | sifter model name sifter =>
      cases known : catalog.position? model with
      | none => simp [register, registerSifter, known] at registered
      | some position =>
          obtain rfl := by simpa [register, registerSifter, known] using registered
          refine ⟨rfl, fun key => ?_, fun key => ?_⟩
          · rw [Registration.lastSifter?_singleton]
            exact find?_insert (model, name) key sifter catalog.sifters
          · rw [Registration.lastCondition?_singleton]
            rfl
  | condition model association condition =>
      cases known : catalog.document.model? model with
      | none => simp [register, registerCondition, known] at registered
      | some declared =>
          cases declares : declared.association? association with
          | none => simp [register, registerCondition, known, declares] at registered
          | some found =>
              obtain rfl := by simpa [register, registerCondition, known, declares] using registered
              refine ⟨rfl, fun key => ?_, fun key => ?_⟩
              · rw [Registration.lastSifter?_singleton]
                rfl
              · rw [Registration.lastCondition?_singleton]
                exact find?_insert (model, association) key condition catalog.conditions

theorem extended_registerAll (catalog : Catalog) (registrations : List Registration) :
    catalog.Extended (catalog.accepted registrations) (catalog.registerAll registrations) := by
  induction registrations generalizing catalog with
  | nil => exact .refl catalog
  | cons registration later inductionHypothesis =>
      unfold accepted registerAll
      cases registered : catalog.register registration with
      | error error => exact inductionHypothesis catalog
      | ok next => exact (extended_of_register registered).trans (inductionHypothesis next)

/-! ## Which registrations succeed -/

theorem isOk_register (catalog : Catalog) (registration : Registration) :
    (catalog.register registration).isOk = registration.isKnown catalog.document := by
  cases registration with
  | sifter model name sifter =>
      have known : (catalog.position? model).isSome =
          catalog.document.models.any fun declared => declared.name.text = model :=
        List.findIdx?_isSome
      rw [Registration.isKnown, ← known]
      cases found : catalog.position? model <;> simp [register, registerSifter, found] <;> rfl
  | condition model association condition =>
      cases found : catalog.document.model? model with
      | none =>
          simp [register, registerCondition, Registration.isKnown, found]
          rfl
      | some declared =>
          cases declares : declared.association? association <;>
            simp [register, registerCondition, Registration.isKnown, found, declares] <;> rfl

/-- Those registrations succeed whose names the document declares, whatever is
registered before them. -/
theorem accepted_eq_filter (catalog : Catalog) (registrations : List Registration) :
    catalog.accepted registrations =
      registrations.filter (Registration.isKnown catalog.document) := by
  induction registrations generalizing catalog with
  | nil => rfl
  | cons registration later inductionHypothesis =>
      have known := catalog.isOk_register registration
      unfold accepted
      cases registered : catalog.register registration with
      | error error =>
          rw [registered] at known
          rw [List.filter_cons_of_neg (by rw [← known]; exact Bool.false_ne_true)]
          exact inductionHypothesis catalog
      | ok next =>
          rw [registered] at known
          have sameDocument := (extended_of_register registered).document
          rw [List.filter_cons_of_pos (by rw [← known]; rfl), ← sameDocument]
          exact congrArg (registration :: ·) (inductionHypothesis next)

end Joinery.Catalog
