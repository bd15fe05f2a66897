import Joinery.Query.Context

/-!
Contract: automatic aliases of repeated tables.

A table whose name is already a qualifier is joined under an alias made of a
stem, and of a number after the stem if the stem is a qualifier too. The
first such name that is not taken is chosen.

Owns: the sequence of candidates and the choice among them.

Does not own: which names are taken, and when a table needs an alias.
-/

namespace Joinery.Plan

open Query (Hop)
open Sql (Relation)

/-- The names that are tried for a repeated table: a stem, then the stem
with `_2`, `_3` and so on. -/
def candidate (stem : String) : Nat → String
  | 0 => stem
  | n + 1 => stem ++ "_" ++ toString (n + 2)

/-- The first candidates, as many as asked for. -/
def candidates (stem : String) (count : Nat) : List String :=
  (List.range count).map (candidate stem)

/-- The first candidate that is not taken. Candidates differ from one
another, so there is one among the first as many as are taken and one
more. -/
def freeAlias (taken : List String) (stem : String) : String :=
  ((candidates stem (taken.length + 1)).find? (· ∉ taken)).getD stem

/-- The stem of the alias for a repeated hop: the association's name and the
owner's table. -/
def aliasStem {τ : Type} (hop : Hop τ) (owner : Relation) : String :=
  hop.name ++ "_" ++ owner.table.name

end Joinery.Plan
