import Joinery.Query.Directory
import Mathlib.Data.List.Forall2

/-!
Contract: terms and expressions that differ only in the values they bind.

Two terms are alike if they have the same shape, the same names, contexts and
raw fragments, and if the values that they bind at the same places are
related. Contexts are compared down to their conditions, which are terms again.
The relation between values is a parameter: it is what is known of the two
values of one literal, and a statement that keeps it says of every value
which literal it is the value of.

Owns: alike tables, links, contexts, terms, directories and expressions, and
detached expressions of alike terms.

Does not own: plans.
-/

namespace Joinery

open Sql (BinaryOperator Expr Ident JoinKind Relation)

/-! ## Contexts up to their conditions -/

namespace Query

section Contexts

variable {τ : Type}

inductive Table.Alike (terms : τ → τ → Prop) : Table τ → Table τ → Prop where
  | mk (scope : Scope) (relation : Relation) (join : JoinKind) {condition condition' : Option τ}
      (conditions : Option.Rel terms condition condition') :
      Alike terms ⟨scope, relation, join, condition⟩ ⟨scope, relation, join, condition'⟩

inductive Link.Alike (terms : τ → τ → Prop) : Link τ → Link τ → Prop where
  | mk (name : String) (kind : Schema.AssociationKind) (target : Scope)
      (foreignKey primaryKey : String) {condition condition' : Option τ}
      (conditions : Option.Rel terms condition condition') :
      Alike terms ⟨name, kind, target, foreignKey, primaryKey, condition⟩
        ⟨name, kind, target, foreignKey, primaryKey, condition'⟩

inductive Hop.Alike (terms : τ → τ → Prop) : Hop τ → Hop τ → Prop where
  | mk {link link' : Link τ} {table table' : Table τ} (links : Link.Alike terms link link')
      (tables : Table.Alike terms table table') : Alike terms ⟨link, table⟩ ⟨link', table'⟩

inductive Chain.Alike (terms : τ → τ → Prop) : Chain τ → Chain τ → Prop where
  | mk {root root' : Table τ} {earlier earlier' : List (Hop τ)} {last last' : Hop τ}
      (roots : Table.Alike terms root root')
      (beginnings : List.Forall₂ (Hop.Alike terms) earlier earlier')
      (lasts : Hop.Alike terms last last') :
      Alike terms ⟨root, earlier, last⟩ ⟨root', earlier', last'⟩

inductive Context.Alike (terms : τ → τ → Prop) : Context τ → Context τ → Prop where
  | table {table table' : Table τ} (tables : Table.Alike terms table table') :
      Alike terms (.table table) (.table table')
  | chain {chain chain' : Chain τ} (chains : Chain.Alike terms chain chain') :
      Alike terms (.chain chain) (.chain chain')

variable {terms : τ → τ → Prop}

theorem Table.Alike.relation {table table' : Table τ} (tables : Table.Alike terms table table') :
    table'.relation = table.relation := by
  cases tables
  rfl

theorem Table.Alike.scope {table table' : Table τ} (tables : Table.Alike terms table table') :
    table'.scope = table.scope := by
  cases tables
  rfl

theorem Table.Alike.conditioned {table table' : Table τ}
    (tables : Table.Alike terms table table') :
    table'.condition.isSome = table.condition.isSome := by
  cases tables with
  | mk scope relation join conditions =>
      cases conditions <;> rfl

theorem Table.alike_ofScope (scope : Scope) :
    Table.Alike terms (.ofScope scope) (.ofScope scope) :=
  .mk scope _ _ .none

theorem Hop.Alike.relation {hop hop' : Hop τ} (hops : Hop.Alike terms hop hop') :
    hop'.table.relation = hop.table.relation := by
  cases hops with
  | mk links tables => exact tables.relation

theorem Hop.Alike.name {hop hop' : Hop τ} (hops : Hop.Alike terms hop hop') :
    hop'.name = hop.name := by
  cases hops with
  | mk links tables =>
      cases links
      rfl

theorem Hop.Alike.join {hop hop' : Hop τ} (hops : Hop.Alike terms hop hop') :
    hop'.table.join = hop.table.join := by
  cases hops with
  | mk links tables =>
      cases tables
      rfl

theorem Hop.alike_ofLink {link link' : Link τ} (links : Link.Alike terms link link') :
    Hop.Alike terms (.ofLink link) (.ofLink link') := by
  have targets : link'.target = link.target := by
    cases links
    rfl
  have tables : Table.Alike terms (.ofScope link.target) (.ofScope link'.target) := by
    rw [targets]
    exact Table.alike_ofScope link.target
  exact .mk links tables

theorem Chain.Alike.hops {chain chain' : Chain τ} (chains : Chain.Alike terms chain chain') :
    List.Forall₂ (Hop.Alike terms) chain.hops chain'.hops := by
  cases chains with
  | mk roots beginnings lasts => exact List.rel_append beginnings (.cons lasts .nil)

theorem Chain.Alike.root {chain chain' : Chain τ} (chains : Chain.Alike terms chain chain') :
    Table.Alike terms chain.root chain'.root := by
  cases chains with
  | mk roots beginnings lasts => exact roots

theorem Context.Alike.target {context context' : Context τ}
    (contexts : Context.Alike terms context context') :
    Table.Alike terms context.target context'.target := by
  cases contexts with
  | table tables => exact tables
  | chain chains =>
      cases chains with
      | mk roots beginnings lasts =>
          cases lasts with
          | mk links tables => exact tables

theorem Context.Alike.relation {context context' : Context τ}
    (contexts : Context.Alike terms context context') : context'.relation = context.relation :=
  contexts.target.relation

theorem Context.Alike.scope {context context' : Context τ}
    (contexts : Context.Alike terms context context') : context'.scope = context.scope :=
  contexts.target.scope

theorem Context.Alike.follow {context context' : Context τ} {link link' : Link τ}
    (contexts : Context.Alike terms context context') (links : Link.Alike terms link link') :
    Chain.Alike terms (context.follow link) (context'.follow link') := by
  cases contexts with
  | table tables => exact .mk tables .nil (Hop.alike_ofLink links)
  | chain chains =>
      have hops := chains.hops
      exact .mk chains.root hops (Hop.alike_ofLink links)

end Contexts

/-! ## Terms -/

/-- The terms differ only in the values that they bind, also in the
conditions of their contexts, and values at the same place are related. -/
inductive Term.Alike (values : Value → Value → Prop) : Term → Term → Prop where
  | value {bound bound' : Value} (related : values bound bound') :
      Alike values (.value bound) (.value bound')
  | sql (fragment : String) : Alike values (.sql fragment) (.sql fragment)
  | column {context context' : Context Term} (name : String)
      (contexts : Context.Alike (Alike values) context context') :
      Alike values (.column ⟨context, name⟩) (.column ⟨context', name⟩)
  | relation {context context' : Context Term}
      (contexts : Context.Alike (Alike values) context context') :
      Alike values (.relation context) (.relation context')
  | binary {left left' right right' : Term} (op : BinaryOperator)
      (lefts : Alike values left left') (rights : Alike values right right') :
      Alike values (.binary op left right) (.binary op left' right')
  | isNull {operand operand' : Term} (negated : Bool)
      (operands : Alike values operand operand') :
      Alike values (.isNull operand negated) (.isNull operand' negated)
  | inList {operand operand' : Term} {items items' : List Term} (negated : Bool)
      (operands : Alike values operand operand')
      (lists : List.Forall₂ (Alike values) items items') :
      Alike values (.inList operand items negated) (.inList operand' items' negated)
  | call {args args' : List Term} (name : String) (star : Bool)
      (lists : List.Forall₂ (Alike values) args args') :
      Alike values (.call name args star) (.call name args' star)
  | aliased {operand operand' : Term} (aliasName : String)
      (operands : Alike values operand operand') :
      Alike values (.aliased operand aliasName) (.aliased operand' aliasName)

/-- The directories declare alike associations. -/
def Directory.Alike (values : Value → Value → Prop) (directory directory' : Directory) : Prop :=
  ∀ scope name, Option.Rel (Link.Alike (Term.Alike values))
    (directory.link? scope name) (directory'.link? scope name)

end Query

/-! ## Expressions -/

/-- The expressions differ only in the values that they bind, and values at
the same place are related. -/
inductive Sql.Expr.Alike (values : Value → Value → Prop) : Expr → Expr → Prop where
  | identifier (ident : Ident) : Alike values (.identifier ident) (.identifier ident)
  | wildcard (qualifier : Option String) :
      Alike values (.wildcard qualifier) (.wildcard qualifier)
  | value {bound bound' : Value} (related : values bound bound') :
      Alike values (.value bound) (.value bound')
  | literal (fragment : String) : Alike values (.literal fragment) (.literal fragment)
  | binary {left left' right right' : Expr} (op : BinaryOperator)
      (lefts : Alike values left left') (rights : Alike values right right') :
      Alike values (.binary op left right) (.binary op left' right')
  | isNull {operand operand' : Expr} (negated : Bool)
      (operands : Alike values operand operand') :
      Alike values (.isNull operand negated) (.isNull operand' negated)
  | inList {operand operand' : Expr} {items items' : List Expr} (negated : Bool)
      (operands : Alike values operand operand')
      (lists : List.Forall₂ (Alike values) items items') :
      Alike values (.inList operand items negated) (.inList operand' items' negated)
  | call {args args' : List Expr} (name : String) (star : Bool)
      (lists : List.Forall₂ (Alike values) args args') :
      Alike values (.call name args star) (.call name args' star)
  | aliased {operand operand' : Expr} (aliasName : String)
      (operands : Alike values operand operand') :
      Alike values (.aliased operand aliasName) (.aliased operand' aliasName)

namespace Query.Term

variable {values : Value → Value → Prop}

mutual

theorem Alike.detached : {term term' : Term} → Alike values term term' →
    Expr.Alike values term.detached term'.detached
  | _, _, .value related => .value related
  | _, _, .sql fragment => .literal fragment
  | _, _, .column name contexts => by
      simp only [Term.detached, Column.ident]
      rw [contexts.relation]
      exact .identifier _
  | _, _, .relation contexts => by
      simp only [Term.detached]
      rw [contexts.relation]
      exact .wildcard _
  | _, _, .binary op lefts rights => .binary op lefts.detached rights.detached
  | _, _, .isNull negated operands => .isNull negated operands.detached
  | _, _, .inList negated operands lists =>
      .inList negated operands.detached (alike_detachedList lists)
  | _, _, .call name star lists => .call name star (alike_detachedList lists)
  | _, _, .aliased aliasName operands => .aliased aliasName operands.detached

theorem alike_detachedList : {terms terms' : List Term} →
    List.Forall₂ (Alike values) terms terms' →
    List.Forall₂ (Expr.Alike values) (detachedList terms) (detachedList terms')
  | _, _, .nil => .nil
  | _, _, .cons first others => .cons first.detached (alike_detachedList others)

end

end Query.Term

end Joinery
