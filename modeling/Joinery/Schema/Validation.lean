import Joinery.Schema.Document

/-!
Contract: the faults of schema documents.

`Document.validate` reports the first fault. Repeated model names come
before any fault of an association; associations are checked in document
order, and for one association an undeclared target comes before a missing
foreign key. A target may be declared before or after its use.

Owns: the faults, their wording, and the order in which they are found.

Does not own: reading documents.
-/

namespace Joinery.Schema

/-- Why a document, or a name used with it, is refused. -/
inductive Fault where
  /-- The text is not JSON, or not laid out as a document. -/
  | malformed
  /-- The file is missing or is not text. -/
  | unreadable
  | unknownModel (name : String)
  | duplicateModel (name : String)
  | unknownTarget (model association target : String)
  | missingForeignKey (model association : String)
deriving DecidableEq, Repr

def Fault.message : Fault → String
  | .malformed => "Invalid schema document"
  | .unreadable => "I/O error"
  | .unknownModel name => "Unknown model: " ++ name
  | .duplicateModel name => "Model '" ++ name ++ "' is declared more than once"
  | .unknownTarget model association target =>
      "Association '" ++ association ++ "' on " ++ model ++ " targets unknown model '" ++
        target ++ "'"
  | .missingForeignKey model association =>
      "Association '" ++ association ++ "' on " ++ model ++
        " requires an explicit foreign_key"

/-- Refuses a name that is among the names before it. -/
def checkNames (seen : List ModelName) : List ModelName → Except Fault Unit
  | [] => .ok ()
  | name :: others =>
      if name ∈ seen then .error (.duplicateModel name.text)
      else checkNames (name :: seen) others

/-- Refuses an association with an undeclared target, or without the foreign
key that its kind requires. -/
def checkAssociation (declared : List ModelName) (model : Model)
    (association : Association) : Except Fault Unit :=
  if association.target ∉ declared then
    .error (.unknownTarget model.name.text association.name association.target.text)
  else if association.kind ≠ .belongsTo ∧ association.foreignKey = none then
    .error (.missingForeignKey model.name.text association.name)
  else .ok ()

/-- Checks the associations of a model in order. -/
def checkModel (declared : List ModelName) (model : Model) : Except Fault Unit :=
  model.associations.forM (checkAssociation declared model)

/-- Reports the first fault of a document. -/
def Document.validate (document : Document) : Except Fault Unit := do
  checkNames [] document.names
  document.models.forM (checkModel document.names)

end Joinery.Schema
