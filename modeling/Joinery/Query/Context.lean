import Joinery.Schema.Document
import Joinery.Sql.Expr

/-!
Contract: what names are looked up in.

A context is a table of a model, or a chain of associations that starts at
such a table. Each hop of a chain keeps the association it follows and the
table it leads to, with the alias, join kind and condition chosen for that
hop. Changing a context gives a new one and leaves the old one as it was.

The types are generic in the type `τ` of join conditions, since conditions
are terms and terms refer to contexts.

Owns: tables, hops, chains, contexts and columns, and their changes.

Does not own: looking names up, which needs a directory of models.
-/

namespace Joinery.Query

open Sql (Expr Ident JoinKind Relation TableRef)
open Schema (AssociationKind)

/-- A model as one directory knows it: the position there, the model's name
and its table. -/
structure Scope where
  position : Nat
  model : String
  table : TableRef
deriving DecidableEq, Repr

/-- An association as declared: its name, kind and target, its key columns,
and the condition declared in place of the keys, if any. -/
structure Link (τ : Type) where
  name : String
  kind : AssociationKind
  target : Scope
  foreignKey : String
  primaryKey : String
  condition : Option τ := none
deriving Repr

namespace Link

variable {τ : Type}

/-- Declares a condition in place of the keys. -/
def withCondition (link : Link τ) (condition : τ) : Link τ :=
  { link with condition := some condition }

/-- The column of the target that takes part in the key equality. -/
def targetKey (link : Link τ) : String :=
  match link.kind with
  | .belongsTo => link.primaryKey
  | .hasOne => link.foreignKey
  | .hasMany => link.foreignKey

/-- The column of the owner that takes part in the key equality. -/
def ownerKey (link : Link τ) : String :=
  match link.kind with
  | .belongsTo => link.foreignKey
  | .hasOne => link.primaryKey
  | .hasMany => link.primaryKey

/-- The equality of the keys, the target's column on the left. -/
def keyCondition (link : Link τ) (owner target : Relation) : Expr :=
  .binary .eq (.qualified target.qualifier link.targetKey)
    (.qualified owner.qualifier link.ownerKey)

end Link

/-- A relation of a model, with the way it is to be joined. -/
structure Table (τ : Type) where
  scope : Scope
  relation : Relation
  join : JoinKind
  condition : Option τ
deriving Repr

namespace Table

variable {τ : Type}

/-- The table of a model, without alias, for an inner join without a
condition of its own. -/
def ofScope (scope : Scope) : Table τ :=
  { scope, relation := { table := scope.table }, join := .inner, condition := none }

/-- The name of the table's model. -/
def model (table : Table τ) : String :=
  table.scope.model

def withAlias (table : Table τ) (aliasName : String) : Table τ :=
  { table with relation := { table.relation with aliasName := some aliasName } }

/-- Keeps rows without a match. -/
def outer (table : Table τ) : Table τ :=
  { table with join := .left }

/-- Drops rows without a match. -/
def inner (table : Table τ) : Table τ :=
  { table with join := .inner }

/-- Joins on a condition, in place of any other. -/
def on (table : Table τ) (condition : τ) : Table τ :=
  { table with condition := some condition }

end Table

/-- One step of a chain: the association and the table it leads to. -/
structure Hop (τ : Type) where
  link : Link τ
  table : Table τ
deriving Repr

namespace Hop

variable {τ : Type}

/-- The hop along an association, to its target's table as it is. -/
def ofLink (link : Link τ) : Hop τ :=
  { link, table := .ofScope link.target }

def name (hop : Hop τ) : String :=
  hop.link.name

end Hop

/-- A chain of at least one association, starting at a root table. -/
structure Chain (τ : Type) where
  root : Table τ
  earlier : List (Hop τ)
  last : Hop τ
deriving Repr

namespace Chain

variable {τ : Type}

/-- The chain of a single association. -/
def start (root : Table τ) (link : Link τ) : Chain τ :=
  { root, earlier := [], last := .ofLink link }

/-- Follows one more association. -/
def extend (chain : Chain τ) (link : Link τ) : Chain τ :=
  { chain with earlier := chain.earlier ++ [chain.last], last := .ofLink link }

/-- The hops from the root on. -/
def hops (chain : Chain τ) : List (Hop τ) :=
  chain.earlier ++ [chain.last]

/-- The names of the associations from the root on. -/
def path (chain : Chain τ) : List String :=
  chain.hops.map Hop.name

/-- The table that the last hop starts from. -/
def owner (chain : Chain τ) : Table τ :=
  match chain.earlier.getLast? with
  | some hop => hop.table
  | none => chain.root

/-- The table that the chain leads to. -/
def target (chain : Chain τ) : Table τ :=
  chain.last.table

/-- Changes the table that the chain leads to. -/
def mapTarget (change : Table τ → Table τ) (chain : Chain τ) : Chain τ :=
  { chain with last := { chain.last with table := change chain.last.table } }

end Chain

inductive Context (τ : Type) where
  | table (table : Table τ)
  | chain (chain : Chain τ)
deriving Repr

namespace Context

variable {τ : Type}

/-- The table whose names the context answers for: the table itself, or the
one that the chain leads to. -/
def target : Context τ → Table τ
  | .table plain => plain
  | .chain route => route.target

def scope (context : Context τ) : Scope :=
  context.target.scope

def model (context : Context τ) : String :=
  context.scope.model

def relation (context : Context τ) : Relation :=
  context.target.relation

/-- Changes the table that the context answers for. -/
def mapTarget (change : Table τ → Table τ) : Context τ → Context τ
  | .table plain => .table (change plain)
  | .chain route => .chain (route.mapTarget change)

def withAlias (context : Context τ) (aliasName : String) : Context τ :=
  context.mapTarget (·.withAlias aliasName)

def outer (context : Context τ) : Context τ :=
  context.mapTarget Table.outer

def inner (context : Context τ) : Context τ :=
  context.mapTarget Table.inner

def on (context : Context τ) (condition : τ) : Context τ :=
  context.mapTarget (·.on condition)

/-- The chain that follows one more association of the context. -/
def follow : Context τ → Link τ → Chain τ
  | .table plain, link => .start plain link
  | .chain route, link => route.extend link

end Context

/-- A column of a context. -/
structure Column (τ : Type) where
  context : Context τ
  name : String
deriving Repr

/-- The column qualified by its context's own alias or table name. A plan
may assign another alias, of which this takes no account. -/
def Column.ident {τ : Type} (column : Column τ) : Ident :=
  ⟨some column.context.relation.qualifier, column.name⟩

/-- What a name can stand for. -/
inductive Member (τ : Type) where
  | column (column : Column τ)
  | chain (chain : Chain τ)
deriving Repr

end Joinery.Query
