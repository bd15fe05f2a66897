import Joinery.Json.Parser
import Joinery.Schema.Validation

/-!
Contract: schema documents as JSON.

`Document.toJson` writes every field. Reading is more liberal: a record is
an object whose known members occur at most once and whose unknown members
are ignored, or an array of its fields in order, in which optional fields at
the end may be missing. Optional fields have their defaults when they are
absent; only `schema` and `foreign_key` may also be null.
-/

namespace Joinery.Schema

/-! ## Reading -/

/-- The fields of a record, in the given order, each absent or present. -/
def fields? (names : List String) : Json → Option (List (Option Json))
  | .object members =>
      if members.any fun member => member.1 = none then none
      else
        names.mapM fun name =>
          match Json.membersNamed name members with
          | [] => some none
          | [value] => some (some value)
          | _ => none
  | .array items =>
      if items.length ≤ names.length then
        some (items.map some ++ List.replicate (names.length - items.length) none)
      else none
  | _ => none

/-- A text. -/
def string? : Json → Option String
  | .string literal => literal
  | _ => none

/-- A list of elements of one shape. -/
def list? {α : Type} (element? : Json → Option α) : Json → Option (List α)
  | .array items => items.mapM element?
  | _ => none

/-- A text, or null for its absence. -/
def nullable? : Json → Option (Option String)
  | .null => some none
  | json => (string? json).map some

/-- A field that must be present. -/
def required {α : Type} (read : Json → Option α) (field : Option Json) : Option α :=
  field.bind read

/-- A field with a default. -/
def withDefault {α : Type} (default : α) (read : Json → Option α)
    (field : Option Json) : Option α :=
  (field.map read).getD (some default)

/-- An association kind of a given name. -/
def AssociationKind.ofName? : String → Option AssociationKind
  | "belongs_to" => some .belongsTo
  | "has_one" => some .hasOne
  | "has_many" => some .hasMany
  | _ => none

theorem AssociationKind.ofName?_name (kind : AssociationKind) :
    ofName? kind.name = some kind := by
  cases kind <;> rfl

/-- A kind, by its name or as an object with a null member of that name. -/
def AssociationKind.ofJson? : Json → Option AssociationKind
  | .string literal => literal.bind ofName?
  | .object [(name, .null)] => name.bind ofName?
  | _ => none

def modelName? (json : Json) : Option ModelName :=
  (string? json).map ModelName.mk

def Association.ofJson? (json : Json) : Option Association := do
  match ← fields? ["name", "kind", "target", "foreign_key", "primary_key"] json with
  | [name, kind, target, foreignKey, primaryKey] =>
      let name ← required string? name
      let kind ← required AssociationKind.ofJson? kind
      let target ← required modelName? target
      let foreignKey ← withDefault none nullable? foreignKey
      let primaryKey ← withDefault defaultPrimaryKey string? primaryKey
      some { name, kind, target, foreignKey, primaryKey }
  | _ => none

def Model.ofJson? (json : Json) : Option Model := do
  match ← fields? ["name", "table", "schema", "columns", "associations"] json with
  | [name, table, schema, columns, associations] =>
      let name ← required modelName? name
      let table ← required string? table
      let schema ← withDefault none nullable? schema
      let columns ← withDefault [] (list? string?) columns
      let associations ← withDefault [] (list? Association.ofJson?) associations
      some { name, table, schema, columns, associations }
  | _ => none

def Document.ofJson? (json : Json) : Option Document := do
  match ← fields? ["models"] json with
  | [models] => (required (list? Model.ofJson?) models).map Document.mk
  | _ => none

/-- Reads a document from its tree and validates it. -/
def Document.ofJson (json : Json) : Except Fault Document :=
  match Document.ofJson? json with
  | some document => document.validate.map fun _ => document
  | none => .error .malformed

/-- Reads a document from its text and validates it. -/
def Document.ofText (source : String) : Except Fault Document :=
  match Json.parse? source with
  | some json => Document.ofJson json
  | none => .error .malformed

/-- Reads a document from the bytes of a file; `none` stands for a file that
cannot be read. -/
def Document.ofFile (contents : Option ByteArray) : Except Fault Document :=
  match contents.bind String.fromUTF8? with
  | some source => Document.ofText source
  | none => .error .unreadable

/-! ## Writing -/

/-- A text, or null for its absence. -/
def nullableToJson : Option String → Json
  | some content => .text content
  | none => .null

def Association.toJson (association : Association) : Json :=
  .record
    [ ("name", .text association.name),
      ("kind", .text association.kind.name),
      ("target", .text association.target.text),
      ("foreign_key", nullableToJson association.foreignKey),
      ("primary_key", .text association.primaryKey) ]

def Model.toJson (model : Model) : Json :=
  .record
    [ ("name", .text model.name.text),
      ("table", .text model.table),
      ("schema", nullableToJson model.schema),
      ("columns", .array (model.columns.map .text)),
      ("associations", .array (model.associations.map Association.toJson)) ]

def Document.toJson (document : Document) : Json :=
  .record [("models", .array (document.models.map Model.toJson))]

end Joinery.Schema
