import Joinery.Sql.Relation

/-!
Contract: the log of lookups and plans.

An event says what happened in the terms of the domain; its level, message
and fields are how it is written to a log. `Logged` is a result with the
events that led to it, oldest first.
-/

namespace Joinery.Query

/-- A step of a join path: the association, and the alias chosen for the hop
if any. -/
structure Segment where
  name : String
  aliasName : Option String
deriving DecidableEq, Repr

/-- The segment as it is written in a log: the alias in parentheses. -/
def Segment.label (segment : Segment) : String :=
  match segment.aliasName with
  | some aliasName => segment.name ++ "(" ++ aliasName ++ ")"
  | none => segment.name

/-- The segments of a path with dots between them. -/
def pathLabel (path : List Segment) : String :=
  String.intercalate "." (path.map Segment.label)

inductive Event where
  | catalogLoaded (models : Nat)
  | columnResolved (model name : String)
  | associationResolved (model name : String)
  /-- A relation was added to a plan. -/
  | joinAppended (table qualifier : String) (path : List Segment) (kind : Sql.JoinKind)
  /-- A join was already in the plan, in the same way. -/
  | duplicateSkipped (qualifier : String) (path : List Segment)
  /-- A join was already in the plan, with another kind or condition. -/
  | duplicateDiffers (qualifier : String) (path : List Segment)
  /-- The alias chosen for a hop is already a qualifier in the plan. -/
  | aliasCollides (qualifier association : String)
  /-- An explicitly joined table has a qualifier that is already in the plan. -/
  | qualifierReused (qualifier : String)
  /-- A table that is already in the plan was given an alias. -/
  | repeatedTableAliased (table aliasName : String)
deriving DecidableEq, Repr

inductive Level where
  | trace
  | debug
  | info
  | warn
deriving DecidableEq, Repr

def Level.name : Level → String
  | .trace => "trace"
  | .debug => "debug"
  | .info => "info"
  | .warn => "warn"

namespace Event

def level : Event → Level
  | .catalogLoaded .. => .info
  | .columnResolved .. => .trace
  | .associationResolved .. => .trace
  | .joinAppended .. => .debug
  | .duplicateSkipped .. => .trace
  | .duplicateDiffers .. => .warn
  | .aliasCollides .. => .warn
  | .qualifierReused .. => .warn
  | .repeatedTableAliased .. => .trace

def message : Event → String
  | .catalogLoaded .. => "schema catalog loaded"
  | .columnResolved .. => "resolved column"
  | .associationResolved .. => "resolved association"
  | .joinAppended .. => "join appended"
  | .duplicateSkipped .. => "duplicate join skipped"
  | .duplicateDiffers .. => "duplicate join differs in kind or condition; keeping the first"
  | .aliasCollides .. => "explicit alias collides with a relation already in the plan"
  | .qualifierReused .. => "explicit join reuses a qualifier already present in the plan"
  | .repeatedTableAliased .. => "aliasing repeated table"

/-- The named details of an event. -/
def fields : Event → List (String × String)
  | .catalogLoaded models => [("models", toString models)]
  | .columnResolved model name => [("model", model), ("name", name)]
  | .associationResolved model name => [("model", model), ("name", name)]
  | .joinAppended table qualifier path kind =>
      [("table", table), ("qualifier", qualifier), ("path", pathLabel path),
        ("kind", kind.name)]
  | .duplicateSkipped qualifier path => [("qualifier", qualifier), ("path", pathLabel path)]
  | .duplicateDiffers qualifier path => [("qualifier", qualifier), ("path", pathLabel path)]
  | .aliasCollides qualifier association =>
      [("qualifier", qualifier), ("association", association)]
  | .qualifierReused qualifier => [("qualifier", qualifier)]
  | .repeatedTableAliased table aliasName => [("table", table), ("alias", aliasName)]

end Event

/-- A result with the events on the way to it, oldest first. -/
structure Logged (α : Type) where
  value : α
  events : List Event
deriving Repr

namespace Logged

variable {α β : Type}

/-- A result without events. -/
def quiet (value : α) : Logged α :=
  ⟨value, []⟩

/-- Continues with a result, after its events. -/
def andThen (logged : Logged α) (next : α → Logged β) : Logged β :=
  let after := next logged.value
  ⟨after.value, logged.events ++ after.events⟩

instance : Monad Logged where
  pure := quiet
  bind := andThen

instance : LawfulMonad Logged :=
  LawfulMonad.mk' Logged
    (by intro α logged; cases logged; simp [Functor.map, andThen, quiet])
    (by intro α β value next; simp [bind, pure, andThen, quiet])
    (by intro α β γ logged next after; simp [bind, andThen])

end Logged

end Joinery.Query
