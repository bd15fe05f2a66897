import Joinery.Proofs.Query.Paths

/-!
Contract: contexts that come from other contexts.

A context is used by looking up a name or a dotted path, or by a change to the
table that it answers for. Each use, whatever its form, comes down to moves of two
kinds: one association is followed, or the table is changed (`makeAll_of_useAll`).
A list of moves is a route: the changes made before the first association is
followed, and each association with the changes made before the next. After
several changes a table has each of its settings as it was set last.

Owns: uses, moves and routes, and the settings that changes leave.

Does not own: where associations lead.
-/

namespace Joinery.Query

/-! ## Changes -/

/-- A change to the table that a context answers for. -/
inductive Change where
  | withAlias (aliasName : String)
  | outer
  | inner
  | on (condition : Term)

namespace Change

def apply (table : Table Term) : Change → Table Term
  | .withAlias aliasName => table.withAlias aliasName
  | .outer => table.outer
  | .inner => table.inner
  | .on condition => table.on condition

def applyTo (context : Context Term) : Change → Context Term
  | .withAlias aliasName => context.withAlias aliasName
  | .outer => context.outer
  | .inner => context.inner
  | .on condition => context.on condition

theorem applyTo_eq (context : Context Term) (change : Change) :
    change.applyTo context = context.mapTarget change.apply := by
  cases change <;> rfl

/-- The alias that is set, if it is an alias. -/
def alias? : Change → Option String
  | .withAlias aliasName => some aliasName
  | .outer => none
  | .inner => none
  | .on _ => none

/-- The join kind that is set, if it is a join kind. -/
def kind? : Change → Option Sql.JoinKind
  | .withAlias _ => none
  | .outer => some .left
  | .inner => some .inner
  | .on _ => none

/-- The condition that is set, if it is a condition. -/
def condition? : Change → Option Term
  | .withAlias _ => none
  | .outer => none
  | .inner => none
  | .on condition => some condition

end Change

/-- The table with each setting as some changes set it last, or as it was if none
of them sets it. Its scope and its name stay. -/
def Table.settled (table : Table Term) (changes : List Change) : Table Term where
  scope := table.scope
  relation :=
    { table := table.relation.table
      aliasName := (changes.filterMap Change.alias?).getLast?.or table.relation.aliasName }
  join := (changes.filterMap Change.kind?).getLast?.getD table.join
  condition := (changes.filterMap Change.condition?).getLast?.or table.condition

@[simp]
theorem Table.settled_nil (table : Table Term) : table.settled [] = table := rfl

/-- Changes are made one after the other. -/
theorem Table.settled_cons (table : Table Term) (change : Change) (changes : List Change) :
    table.settled (change :: changes) = (change.apply table).settled changes := by
  cases change <;>
    simp [settled, Change.apply, withAlias, outer, inner, on, Change.alias?, Change.kind?,
      Change.condition?, List.getLast?_cons, Option.or_some]

/-! ## Moves and routes -/

/-- What takes a context to the next. -/
inductive Move where
  | follow (name : String)
  | set (change : Change)

def Move.make (directory : Directory) (context : Context Term) : Move → Option (Context Term)
  | .follow name => (context.association directory name).toOption.map .chain
  | .set change => some (change.applyTo context)

/-- Makes moves one after the other. -/
def Context.makeAll (directory : Directory) (context : Context Term) (moves : List Move) :
    Option (Context Term) :=
  moves.foldlM (Move.make directory) context

/-- The changes before the first association that is followed, and each
association that is followed with the changes before the next. -/
structure Route where
  start : List Change
  legs : List (String × List Change)

def Route.ofMoves : List Move → Route
  | [] => ⟨[], []⟩
  | .set change :: later =>
      let rest := ofMoves later
      ⟨change :: rest.start, rest.legs⟩
  | .follow name :: later =>
      let rest := ofMoves later
      ⟨[], (name, rest.start) :: rest.legs⟩

/-! ## Uses -/

/-- A way to come from a context to another. -/
inductive Use where
  | association (name : String)
  | resolve (name : String)
  | get (name : String)
  | path (dotted : String)
  | set (change : Change)

/-- The context that a member is found in, or that it is. -/
def Member.context : Member Term → Context Term
  | .column found => found.context
  | .chain route => .chain route

/-- The moves to a member along names. A column is found where the names before
its own lead. -/
def Member.moves (names : List String) : Member Term → List Move
  | .column _ => names.dropLast.map .follow
  | .chain _ => names.map .follow

/-- The context that a use gives, with the moves to it, unless the use fails. -/
def Use.give (directory : Directory) (context : Context Term) :
    Use → Option (List Move × Context Term)
  | .association name =>
      (context.association directory name).toOption.map fun chain =>
        ([.follow name], .chain chain)
  | .resolve name =>
      (context.resolve directory name).value.map fun found => (found.moves [name], found.context)
  | .get name =>
      (context.get directory name).value.toOption.map fun found =>
        (found.moves [name], found.context)
  | .path dotted =>
      (context.path directory dotted).value.toOption.map fun found =>
        (found.moves (Text.names dotted), found.context)
  | .set change => some ([.set change], change.applyTo context)

/-- The context that uses give one after the other, with all moves to it. -/
def Context.useAll (directory : Directory) (context : Context Term) :
    List Use → Option (List Move × Context Term)
  | [] => some ([], context)
  | use :: later => do
      let (moves, next) ← use.give directory context
      let (further, reached) ← useAll directory next later
      some (moves ++ further, reached)

theorem toOption_eq_some_iff {α : Type} {result : Except Error α} {value : α} :
    result.toOption = some value ↔ result = .ok value := by
  cases result <;> simp [Except.toOption]

namespace Context

variable {directory : Directory} {context next reached : Context Term} {name : String}
  {names : List String} {moves : List Move} {found : Member Term}

theorem makeAll_append (directory : Directory) (context : Context Term)
    (earlier later : List Move) :
    makeAll directory context (earlier ++ later) =
      (makeAll directory context earlier).bind fun next => makeAll directory next later :=
  List.foldlM_append

theorem makeAll_singleton (directory : Directory) (context : Context Term) (move : Move) :
    makeAll directory context [move] = move.make directory context :=
  bind_pure _

/-- Names that can be followed are followed by moves. -/
theorem makeAll_of_reaches (reaches : Reaches directory context names reached) :
    makeAll directory context (names.map .follow) = some reached := by
  induction reaches with
  | here context => rfl
  | @along context reached name names chain followed further inductionHypothesis =>
      rw [List.map_cons, makeAll, List.foldlM_cons, Move.make, followed]
      exact inductionHypothesis

theorem makeAll_of_resolve (isFound : (context.resolve directory name).value = some found) :
    makeAll directory context (found.moves [name]) = some found.context := by
  cases found with
  | column column =>
      obtain ⟨-, rfl⟩ := resolve_eq_column_iff.1 isFound
      rfl
  | chain chain =>
      have followed := (resolve_eq_chain_iff.1 isFound).2
      exact makeAll_of_reaches (.along followed (.here _))

/-- A member that a path leads to is reached over the names of the path. -/
theorem makeAll_of_path {dotted : String}
    (isFound : (context.path directory dotted).value = .ok found) :
    makeAll directory context (found.moves (Text.names dotted)) = some found.context := by
  obtain ⟨earlier, last, split⟩ : ∃ earlier last, Text.names dotted = earlier ++ [last] :=
    ⟨_, _, (List.dropLast_concat_getLast (Text.names_ne_nil dotted)).symm⟩
  have parts : found.moves (earlier ++ [last]) = earlier.map .follow ++ found.moves [last] := by
    cases found <;> simp [Member.moves]
  rw [path_eq, split, List.dropLast_concat] at isFound
  rw [split, parts, makeAll_append]
  cases followed : followAll directory context earlier with
  | error error =>
      rw [followed] at isFound
      cases isFound
  | ok reached =>
      rw [followed] at isFound
      have isLast : (reached.get directory last).value = .ok found := by simpa using isFound
      rw [makeAll_of_reaches (followAll_eq_ok_iff.1 followed)]
      exact makeAll_of_resolve (resolve_of_get isLast)

theorem makeAll_of_give {use : Use} (given : use.give directory context = some (moves, next)) :
    makeAll directory context moves = some next := by
  unfold Use.give at given
  cases use with
  | association name =>
      obtain ⟨chain, followed, same⟩ := Option.map_eq_some_iff.1 given
      cases same
      rw [makeAll_singleton, Move.make, followed]
      rfl
  | resolve name =>
      obtain ⟨found, isFound, same⟩ := Option.map_eq_some_iff.1 given
      cases same
      exact makeAll_of_resolve isFound
  | get name =>
      obtain ⟨found, isFound, same⟩ := Option.map_eq_some_iff.1 given
      cases same
      exact makeAll_of_resolve (resolve_of_get (toOption_eq_some_iff.1 isFound))
  | path dotted =>
      obtain ⟨found, isFound, same⟩ := Option.map_eq_some_iff.1 given
      cases same
      exact makeAll_of_path (toOption_eq_some_iff.1 isFound)
  | set change =>
      cases given
      rfl

/-- Uses give what the moves lead to that they come down to. -/
theorem makeAll_of_useAll {uses : List Use}
    (used : useAll directory context uses = some (moves, reached)) :
    makeAll directory context moves = some reached := by
  induction uses generalizing context moves with
  | nil =>
      cases used
      rfl
  | cons use later inductionHypothesis =>
      obtain ⟨⟨first, next⟩, given, rest⟩ := Option.bind_eq_some_iff.1 used
      obtain ⟨⟨further, last⟩, usedLater, same⟩ := Option.bind_eq_some_iff.1 rest
      cases same
      rw [makeAll_append, makeAll_of_give given]
      exact inductionHypothesis usedLater

end Context

end Joinery.Query
