import Joinery.Query.Error
import Joinery.Query.Event
import Joinery.Query.Term

/-!
Contract: what lookups need to know about models.

A directory answers for each of its scopes which columns and associations a
model has and which sifters are registered on it. Lookups ask the directory
every time and never change it. A sifter builds a predicate for the context
that it is applied to.
-/

namespace Joinery.Query

/-- Builds a predicate for a context from argument values. -/
abbrev Sifter := Context Term → List Value → Logged (Except Error Term)

structure Directory where
  columnNames : Scope → List String
  /-- The association of a given name. -/
  link? : Scope → String → Option (Link Term)
  /-- The sifter of a given name. -/
  sifter? : Scope → String → Option Sifter
  hasColumn : Scope → String → Bool := fun scope name => (columnNames scope).contains name

/-- The columns of a model in ascending order, each once. -/
def Directory.sortedColumns (directory : Directory) (scope : Scope) : List String :=
  ((directory.columnNames scope).mergeSort fun a b => decide (a ≤ b)).eraseReps

end Joinery.Query
