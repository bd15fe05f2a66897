import Joinery.Query.Lookup

/-!
Contract: where association names lead.

A directory leads from a scope along a name to the scope of the association's
target, and along several names step by step. Following names from a context
goes the same way: it keeps the root, reaches the scope that the names lead to,
and fails exactly if some name is not declared where the names before it lead
(`followAll_eq_error_iff`), with an error about the first such name.

Owns: scopes that names lead to, and the failures of following names.

Does not own: what a particular directory declares.
-/

namespace Joinery.Query

namespace Directory

variable (directory : Directory)

/-- The scope that association names lead to, if each of them is declared
where the names before it lead. -/
def lead? (scope : Scope) (names : List String) : Option Scope :=
  names.foldlM (fun scope name => (directory.link? scope name).map Link.target) scope

/-- The name is the first of some names that is not declared where the names
before it lead, which is the scope of its owner. -/
def FirstUndeclared (scope : Scope) (names : List String) (name : String) (owner : Scope) :
    Prop :=
  ∃ earlier later, names = earlier ++ name :: later ∧
    directory.lead? scope earlier = some owner ∧ directory.link? owner name = none

variable {directory} {scope owner : Scope} {name : String} {names : List String}

@[simp]
theorem lead?_nil : directory.lead? scope [] = some scope := rfl

theorem lead?_cons :
    directory.lead? scope (name :: names) =
      (directory.link? scope name).bind fun link => directory.lead? link.target names := by
  rw [lead?, List.foldlM_cons]
  exact Option.bind_map

theorem lead?_concat :
    directory.lead? scope (names ++ [name]) =
      (directory.lead? scope names).bind fun reached =>
        (directory.link? reached name).map Link.target := by
  rw [lead?, List.foldlM_append]
  simp [lead?]

theorem firstUndeclared_of_eq_none (undeclared : directory.link? scope name = none) :
    directory.FirstUndeclared scope (name :: names) name scope :=
  ⟨[], names, rfl, rfl, undeclared⟩

/-- If the first name is not declared, it is the first undeclared one. -/
theorem FirstUndeclared.eq_of_eq_none {other : String}
    (undeclared : directory.link? scope other = none)
    (first : directory.FirstUndeclared scope (other :: names) name owner) :
    name = other ∧ owner = scope := by
  obtain ⟨earlier, later, split, leads, -⟩ := first
  cases earlier with
  | nil =>
      cases split
      exact ⟨rfl, (Option.some.inj leads).symm⟩
  | cons declared earlier =>
      cases split
      rw [lead?_cons, undeclared] at leads
      cases leads

/-- After a declared name the search goes on from the target. -/
theorem firstUndeclared_cons_iff {other : String} {link : Link Term}
    (declared : directory.link? scope other = some link) :
    directory.FirstUndeclared scope (other :: names) name owner ↔
      directory.FirstUndeclared link.target names name owner := by
  constructor
  · rintro ⟨earlier, later, split, leads, undeclared⟩
    cases earlier with
    | nil =>
        cases split
        cases leads
        rw [declared] at undeclared
        cases undeclared
    | cons first earlier =>
        cases split
        rw [lead?_cons, declared] at leads
        exact ⟨earlier, later, rfl, leads, undeclared⟩
  · rintro ⟨earlier, later, rfl, leads, undeclared⟩
    refine ⟨other :: earlier, later, rfl, ?_, undeclared⟩
    rw [lead?_cons, declared]
    exact leads

end Directory

namespace Context

/-- The table that the context starts from. -/
def root : Context Term → Table Term
  | .table plain => plain
  | .chain route => route.root

variable {directory : Directory} {context reached : Context Term} {names : List String}
  {error : Error}

@[simp]
theorem scope_follow (context : Context Term) (link : Link Term) :
    (Context.chain (context.follow link)).scope = link.target := by
  cases context <;> rfl

@[simp]
theorem root_follow (context : Context Term) (link : Link Term) :
    (Context.chain (context.follow link)).root = context.root := by
  cases context <;> rfl

theorem followAll_of_eq_none {name : String}
    (undeclared : directory.link? context.scope name = none) :
    followAll directory context (name :: names) =
      .error (.associationNotFound context.model name) := by
  simp [followAll, association, undeclared, bind, Except.bind]

theorem followAll_of_eq_some {name : String} {link : Link Term}
    (declared : directory.link? context.scope name = some link) :
    followAll directory context (name :: names) =
      followAll directory (.chain (context.follow link)) names := by
  simp [followAll, association, declared, bind, Except.bind]

/-- Names that can be followed lead to the scope that is reached, and the
context still starts where it did. -/
theorem followAll_eq_ok (followed : followAll directory context names = .ok reached) :
    directory.lead? context.scope names = some reached.scope ∧ reached.root = context.root := by
  induction names generalizing context with
  | nil =>
      cases followed
      exact ⟨rfl, rfl⟩
  | cons name names inductionHypothesis =>
      cases declared : directory.link? context.scope name with
      | none =>
          rw [followAll_of_eq_none declared] at followed
          cases followed
      | some link =>
          rw [followAll_of_eq_some declared] at followed
          obtain ⟨leads, sameRoot⟩ := inductionHypothesis followed
          rw [scope_follow] at leads
          rw [root_follow] at sameRoot
          rw [Directory.lead?_cons, declared]
          exact ⟨leads, sameRoot⟩

/-- Following names fails at the first one that is not declared where the
names before it lead, and says so. -/
theorem followAll_eq_error_iff :
    followAll directory context names = .error error ↔
      ∃ name owner, directory.FirstUndeclared context.scope names name owner ∧
        error = .associationNotFound owner.model name := by
  induction names generalizing context with
  | nil =>
      constructor
      · intro failed
        cases failed
      · rintro ⟨name, owner, ⟨earlier, later, split, -⟩, -⟩
        simp at split
  | cons name names inductionHypothesis =>
      cases declared : directory.link? context.scope name with
      | none =>
          rw [followAll_of_eq_none declared]
          constructor
          · intro failed
            cases failed
            exact ⟨name, context.scope, Directory.firstUndeclared_of_eq_none declared, rfl⟩
          · rintro ⟨undeclared, owner, first, rfl⟩
            obtain ⟨rfl, rfl⟩ := first.eq_of_eq_none declared
            rfl
      | some link =>
          rw [followAll_of_eq_some declared, inductionHypothesis, scope_follow]
          simp only [Directory.firstUndeclared_cons_iff declared]

end Context

end Joinery.Query
