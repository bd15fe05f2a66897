import Joinery.Proofs.Query.Following

/-!
Contract: what looking up a name finds.

A name that is looked up as any member is a column if the scope of the context
has one, and else an association if there is one. A name that is looked up as an
association is found whether or not a column has it, and the chain is the same:
it has the root and the hops of the context, and one more hop.

Owns: the hops of contexts, and when each way to look up a name succeeds, in any
directory.

Does not own: which columns and associations there are.
-/

namespace Joinery

namespace Query.Context

/-- The hops from the root on, none for a table. -/
def hops : Context Term → List (Hop Term)
  | .table _ => []
  | .chain route => route.hops

/-- The table that the context answers for is that of the last hop, or else the
root. -/
theorem target_eq (context : Context Term) :
    context.target = (context.hops.getLast?.map Hop.table).getD context.root := by
  cases context with
  | table plain => rfl
  | chain route => simp [target, hops, Chain.hops, Chain.target]

@[simp]
theorem hops_follow (context : Context Term) (link : Link Term) :
    (Context.chain (context.follow link)).hops = context.hops ++ [.ofLink link] := by
  cases context <;> rfl

variable {directory : Directory} {context : Context Term} {name : String}

/-! ## What is found -/

theorem association_eq_ok_iff {chain : Chain Term} :
    context.association directory name = .ok chain ↔
      ∃ link, directory.link? context.scope name = some link ∧ chain = context.follow link := by
  unfold association
  cases directory.link? context.scope name <;> simp [eq_comm]

theorem exists_association_iff :
    (∃ chain, context.association directory name = .ok chain) ↔
      (directory.link? context.scope name).isSome := by
  rw [Option.isSome_iff_exists]
  constructor
  · rintro ⟨chain, isFound⟩
    obtain ⟨link, isLink, -⟩ := association_eq_ok_iff.1 isFound
    exact ⟨link, isLink⟩
  · rintro ⟨link, isLink⟩
    exact ⟨context.follow link, association_eq_ok_iff.2 ⟨link, isLink, rfl⟩⟩

theorem column_eq_ok_iff {found : Column Term} :
    context.column directory name = .ok found ↔
      directory.hasColumn context.scope name = true ∧ found = ⟨context, name⟩ := by
  unfold column
  split <;> simp [*, eq_comm]

theorem resolve_eq_column_iff {found : Column Term} :
    (context.resolve directory name).value = some (.column found) ↔
      directory.hasColumn context.scope name = true ∧ found = ⟨context, name⟩ := by
  unfold resolve
  split
  case isTrue isColumn => simp [isColumn, eq_comm]
  case isFalse noColumn =>
    cases directory.link? context.scope name <;> simp [noColumn, Logged.quiet]

theorem resolve_eq_chain_iff {chain : Chain Term} :
    (context.resolve directory name).value = some (.chain chain) ↔
      ¬ directory.hasColumn context.scope name = true ∧
        context.association directory name = .ok chain := by
  unfold resolve association
  split
  case isTrue isColumn => simp [isColumn]
  case isFalse noColumn =>
    cases directory.link? context.scope name <;> simp [noColumn, Logged.quiet]

/-- A member that cannot be found is an error about the model of the context. -/
theorem value_get (directory : Directory) (context : Context Term) (name : String) :
    (context.get directory name).value =
      ((context.resolve directory name).value.map Except.ok).getD
        (.error (.columnNotFound context.model name)) := by
  unfold get
  cases found : (context.resolve directory name).value <;> simp [found]

theorem resolve_of_get {found : Member Term}
    (isFound : (context.get directory name).value = .ok found) :
    (context.resolve directory name).value = some found := by
  rw [value_get] at isFound
  cases resolved : (context.resolve directory name).value with
  | none =>
      rw [resolved] at isFound
      cases isFound
  | some member =>
      rw [resolved] at isFound
      cases isFound
      rfl

end Query.Context

end Joinery
