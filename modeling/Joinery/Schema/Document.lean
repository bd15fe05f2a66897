/-!
Contract: schema documents.

A document declares models in order; a model has a table, columns and
associations to other models, named by model. Nothing here requires that a
document makes sense: that is `Document.validate`.
-/

namespace Joinery.Schema

/-- The name of a model. -/
structure ModelName where
  text : String
deriving DecidableEq, Repr

namespace ModelName

/-- Names are ordered by their characters' code points. -/
def le (a b : ModelName) : Bool :=
  decide (a.text ≤ b.text)

/-- Names in ascending order. -/
def sort (names : List ModelName) : List ModelName :=
  names.mergeSort le

/-- Names in which no two neighbours are equal, the first of equal
neighbours kept. -/
def mergeNeighbours (names : List ModelName) : List ModelName :=
  names.eraseReps

/-- The length of the name in UTF-8. -/
def byteLength (name : ModelName) : Nat :=
  name.text.utf8ByteSize

end ModelName

inductive AssociationKind where
  /-- The owner holds the foreign key. -/
  | belongsTo
  /-- The target holds the foreign key, and at most one row matches. -/
  | hasOne
  /-- The target holds the foreign key. -/
  | hasMany
deriving DecidableEq, Repr

/-- The name of the kind in documents. -/
def AssociationKind.name : AssociationKind → String
  | .belongsTo => "belongs_to"
  | .hasOne => "has_one"
  | .hasMany => "has_many"

/-- The primary key of an association that names none. -/
def defaultPrimaryKey : String := "id"

/-- A declared association of a model. -/
structure Association where
  name : String
  kind : AssociationKind
  target : ModelName
  foreignKey : Option String := none
  primaryKey : String := defaultPrimaryKey
deriving DecidableEq, Repr

namespace Association

def belongsTo (name : String) (target : ModelName) : Association :=
  { name, kind := .belongsTo, target }

def hasOne (name : String) (target : ModelName) (foreignKey : String) : Association :=
  { name, kind := .hasOne, target, foreignKey := some foreignKey }

def hasMany (name : String) (target : ModelName) (foreignKey : String) : Association :=
  { name, kind := .hasMany, target, foreignKey := some foreignKey }

def withForeignKey (association : Association) (column : String) : Association :=
  { association with foreignKey := some column }

def withPrimaryKey (association : Association) (column : String) : Association :=
  { association with primaryKey := column }

/-- The foreign key column: the declared one, or else the association's name
followed by `_id`. -/
def foreignKeyColumn (association : Association) : String :=
  association.foreignKey.getD (association.name ++ "_id")

end Association

/-- A declared model. -/
structure Model where
  name : ModelName
  table : String
  schema : Option String := none
  columns : List String := []
  associations : List Association := []
deriving DecidableEq, Repr

namespace Model

def withSchema (model : Model) (schema : String) : Model :=
  { model with schema := some schema }

/-- Sets the columns, in place of any earlier ones. -/
def withColumns (model : Model) (columns : List String) : Model :=
  { model with columns }

/-- Adds an association after those already declared. -/
def withAssociation (model : Model) (association : Association) : Model :=
  { model with associations := model.associations ++ [association] }

def hasColumn (model : Model) (name : String) : Bool :=
  model.columns.contains name

/-- The first association of a given name. -/
def association? (model : Model) (name : String) : Option Association :=
  model.associations.find? fun association => association.name = name

end Model

structure Document where
  models : List Model := []
deriving DecidableEq, Repr

namespace Document

/-- The names of the models, in order. -/
def names (document : Document) : List ModelName :=
  document.models.map Model.name

/-- The first model of a given name. -/
def model? (document : Document) (name : String) : Option Model :=
  document.models.find? fun model => model.name.text = name

end Document

end Joinery.Schema
