import Joinery.Schema.Validation

/-!
Contract: why a query cannot be built, and what is said about it.
-/

namespace Joinery.Query

inductive Error where
  /-- The name is neither a column nor an association of the model. -/
  | columnNotFound (model name : String)
  | associationNotFound (model name : String)
  /-- A looked-up name was given arguments. -/
  | argumentsGiven (model name : String) (count : Nat)
  | sifterNotFound (model name : String)
  /-- A table was to be joined explicitly without a condition. -/
  | missingJoinCondition (qualifier : String)
  /-- A chain from one root was to be joined into a plan for another. -/
  | rootMismatch (expected found : String)
  /-- A table is neither the root nor joined nor joinable. -/
  | relationNotInPlan (qualifier : String)
  | schema (fault : Schema.Fault)
deriving DecidableEq, Repr

def Error.message : Error → String
  | .columnNotFound model name =>
      "There is no column or association named '" ++ name ++ "' for " ++ model ++ "."
  | .associationNotFound model name =>
      "Association named '" ++ name ++ "' was not found for " ++ model ++ "."
  | .argumentsGiven model name count =>
      "'" ++ name ++ "' on " ++ model ++ " is a name lookup and takes no arguments (got " ++
        toString count ++ ")"
  | .sifterNotFound model name =>
      "No sifter named '" ++ name ++ "' is registered for " ++ model ++ "."
  | .missingJoinCondition qualifier =>
      "Explicit join on '" ++ qualifier ++ "' requires an ON condition"
  | .rootMismatch expected found =>
      "Association chain rooted at '" ++ found ++ "' cannot be joined onto '" ++ expected ++ "'"
  | .relationNotInPlan qualifier =>
      "Relation '" ++ qualifier ++ "' is neither the root of the plan nor joined into it"
  | .schema fault => "Schema error: " ++ fault.message

end Joinery.Query
