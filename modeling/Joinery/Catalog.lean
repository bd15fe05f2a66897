import Joinery.Query.Directory
import Joinery.Schema.Layout
import Joinery.Text.Escaped

/-!
Contract: directories made from schema documents.

A catalog is a valid document together with what is registered on it:
sifters by model and name, and join conditions by model and association. A
later registration under the same names replaces the earlier one, and
registering fails without effect for names that the document does not
declare. `Catalog.directory` answers lookups; the scope of a model is its
position in the document.

Owns: loading, registering, and the answers to lookups.

Does not own: the layout and the faults of documents.
-/

namespace Joinery

open Query (Directory Error Event Link Logged Scope Sifter Term)

/-- Entries registered under a model and a name, in the order in which the
names were first used. -/
abbrev Registry (α : Type) := List ((String × String) × α)

namespace Registry

variable {α : Type}

/-- Registers an entry, in place of an earlier one under the same names. -/
def insert (key : String × String) (value : α) : Registry α → Registry α
  | [] => [(key, value)]
  | entry :: others =>
      if entry.1 = key then (key, value) :: others else entry :: insert key value others

/-- The entry under a model and a name. -/
def find? (key : String × String) : Registry α → Option α
  | [] => none
  | entry :: others => if entry.1 = key then some entry.2 else find? key others

theorem find?_insert_self (key : String × String) (value : α) (registry : Registry α) :
    (registry.insert key value).find? key = some value := by
  induction registry with
  | nil => simp [insert, find?]
  | cons entry others inductionHypothesis =>
      by_cases sameKey : entry.1 = key
      · simp [insert, find?, sameKey]
      · simp [insert, find?, sameKey, inductionHypothesis]

theorem find?_insert_of_ne {key other : String × String} (different : other ≠ key)
    (value : α) (registry : Registry α) :
    (registry.insert key value).find? other = registry.find? other := by
  induction registry with
  | nil => simp [insert, find?, different.symm]
  | cons entry others inductionHypothesis =>
      by_cases sameKey : entry.1 = key
      · simp [insert, find?, sameKey, different.symm]
      · simp [insert, find?, sameKey, inductionHypothesis]

end Registry

structure Catalog where
  document : Schema.Document
  sifters : Registry Sifter := []
  conditions : Registry Term := []

namespace Catalog

/-! ## Loading -/

/-- The catalog of a valid document. -/
def ofDocument (document : Schema.Document) : Logged (Except Error Catalog) :=
  match document.validate with
  | .ok _ => ⟨.ok { document }, [.catalogLoaded document.models.length]⟩
  | .error fault => .quiet (.error (.schema fault))

/-- The catalog of a document that is read first. -/
def ofReading (reading : Except Schema.Fault Schema.Document) :
    Logged (Except Error Catalog) :=
  match reading with
  | .ok document => ofDocument document
  | .error fault => .quiet (.error (.schema fault))

/-- The catalog of the document that a text spells. -/
def ofText (source : String) : Logged (Except Error Catalog) :=
  ofReading (Schema.Document.ofText source)

/-! ## Scopes -/

/-- The models of the document, in order. -/
def models (catalog : Catalog) : List Schema.Model :=
  catalog.document.models

/-- The position of the first model of a given name. -/
def position? (catalog : Catalog) (model : String) : Option Nat :=
  catalog.models.findIdx? fun declared => declared.name.text = model

/-- The scope of a model that stands at a given position. -/
def scopeOf (position : Nat) (model : Schema.Model) : Scope :=
  { position
    model := model.name.text
    table := { schema := model.schema, name := model.table } }

/-- The scope of the first model of a given name. -/
def findScope? (catalog : Catalog) (model : String) : Option Scope := do
  let position ← catalog.position? model
  let declared ← catalog.models[position]?
  some (scopeOf position declared)

/-- The scope of a model, or the error that there is no such model. -/
def scope (catalog : Catalog) (model : String) : Except Error Scope :=
  match catalog.findScope? model with
  | some scope => .ok scope
  | none => .error (.schema (.unknownModel model))

/-- The table of a model, as it is. -/
def table (catalog : Catalog) (model : String) : Except Error (Query.Table Term) :=
  (catalog.scope model).map Query.Table.ofScope

/-! ## Registering -/

/-- Registers a sifter on a model. -/
def registerSifter (catalog : Catalog) (model name : String) (sifter : Sifter) :
    Except Error Catalog :=
  match catalog.position? model with
  | some _ => .ok { catalog with sifters := catalog.sifters.insert (model, name) sifter }
  | none => .error (.schema (.unknownModel model))

/-- Registers the condition on which an association is joined in place of
its keys. -/
def registerCondition (catalog : Catalog) (model association : String) (condition : Term) :
    Except Error Catalog :=
  match catalog.document.model? model with
  | none => .error (.schema (.unknownModel model))
  | some declared =>
      match declared.association? association with
      | none => .error (.associationNotFound model association)
      | some _ =>
          .ok { catalog with
            conditions := catalog.conditions.insert (model, association) condition }

/-! ## Lookups -/

/-- The model of a scope. -/
def model? (catalog : Catalog) (scope : Scope) : Option Schema.Model :=
  catalog.models[scope.position]?

/-- The association of a given name, if it is declared. -/
def link? (catalog : Catalog) (scope : Scope) (name : String) : Option (Link Term) := do
  let model ← catalog.model? scope
  let association ← model.association? name
  let target ← catalog.findScope? association.target.text
  some
    { name := association.name
      kind := association.kind
      target
      foreignKey := association.foreignKeyColumn
      primaryKey := association.primaryKey
      condition := catalog.conditions.find? (model.name.text, name) }

def directory (catalog : Catalog) : Directory where
  columnNames scope := ((catalog.model? scope).map Schema.Model.columns).getD []
  link? := catalog.link?
  sifter? scope name := catalog.sifters.find? (scope.model, name)
  hasColumn scope name := ((catalog.model? scope).map (·.hasColumn name)).getD false

/-! ## Description -/

/-- A registered pair of names. -/
def describeKey (key : String × String) : String :=
  "(" ++ Text.escaped key.1 ++ ", " ++ Text.escaped key.2 ++ ")"

/-- Items in brackets. -/
def describeList (items : List String) : String :=
  "[" ++ String.intercalate ", " items ++ "]"

/-- The models of the catalog and the names that are registered on it. -/
def describe (catalog : Catalog) : String :=
  "Catalog \x7b models: " ++
    describeList (catalog.models.map fun model => Text.escaped model.name.text) ++
    ", sifters: " ++ describeList (catalog.sifters.map fun entry => describeKey entry.1) ++
    ", conditions: " ++
    describeList (catalog.conditions.map fun entry => describeKey entry.1) ++ " \x7d"

/-- The model of a scope. -/
def describeScope (scope : Scope) : String :=
  "CatalogScope(" ++ Text.escaped scope.model ++ ")"

end Catalog

end Joinery
