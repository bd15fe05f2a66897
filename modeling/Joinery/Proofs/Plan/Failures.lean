import Joinery.Proofs.Plan.Attempt
import Joinery.Proofs.Plan.Joins
import Joinery.Proofs.Query.Following

/-!
Contract: when a join fails, and what is left then.

A chain fails exactly for a root other than the plan's, a table exactly for
want of a condition, a path exactly at a name that is not declared where the
names before it lead, and a table as a context exactly if it is neither the
root nor conditioned nor joined. Each failure leaves the plan as it was, with
its index, and nothing in the log. There are no other failures: once a hop is
staged, all later ones can be made.

These are laws of every plan, whatever operations led to it.

Owns: failures of joins.

Does not own: failures of lowering, which keeps what it joined before.
-/

namespace Joinery

open Query (Chain Context Directory Error Event Hop Table Term)
open Sql (Relation)

namespace Planning

/-- A failure of the operation leaves the plan as it is and logs nothing. -/
def AllOrNothing {α : Type} (operation : Planning α) : Prop :=
  ∀ plan error, (operation plan).result = .error error → operation plan = fail error plan

theorem allOrNothing_of_eq_error {α : Type} {operation : Planning α}
    (unchanged : ∀ {plan after : Plan} {error : Error} {events : List Event},
      operation plan = ⟨.error error, after, events⟩ → after = plan ∧ events = []) :
    AllOrNothing operation := by
  intro plan error failed
  obtain ⟨after, events, ran⟩ := eq_of_result failed
  obtain ⟨rfl, rfl⟩ := unchanged ran
  exact ran

theorem allOrNothing_joinChain (chain : Chain Term) : AllOrNothing (joinChain chain) :=
  allOrNothing_of_eq_error joinChain_eq_error

theorem allOrNothing_joinTable (table : Table Term) : AllOrNothing (joinTable table) :=
  allOrNothing_of_eq_error joinTable_eq_error

theorem allOrNothing_joinContext (context : Context Term) : AllOrNothing (joinContext context) :=
  allOrNothing_of_eq_error joinContext_eq_error

variable {plan : Plan} {error : Error}

theorem isRoot_iff {table : Table Term} :
    isRoot plan table = true ↔
      table.model = plan.root.model ∧ table.relation = plan.base := by
  simp [isRoot]

theorem isRoot_root (plan : Plan) : isRoot plan plan.root = true :=
  isRoot_iff.2 ⟨rfl, rfl⟩

/-! ## Chains -/

theorem joinChain_error_iff {chain : Chain Term} :
    (joinChain chain plan).result = .error error ↔
      (chain.root.model ≠ plan.root.model ∨ chain.root.relation ≠ plan.base) ∧
        error = .rootMismatch plan.base.qualifier chain.root.relation.qualifier := by
  rw [← not_and_or, ← isRoot_iff, eq_comm (a := error)]
  by_cases root : isRoot plan chain.root = true
  · simp [joinChain_of_isRoot root, root]
  · simp [joinChain, root]

/-! ## Tables -/

theorem joinTable_error_iff {table : Table Term} :
    (joinTable table plan).result = .error error ↔
      table.condition = none ∧ error = .missingJoinCondition table.relation.qualifier := by
  cases declared : table.condition with
  | none =>
      simp only [joinTable, declared, fail, Except.error.injEq, true_and]
      exact eq_comm
  | some condition =>
      have conditioned : table.condition.isSome := by simp [declared]
      obtain ⟨relation, succeeded⟩ := joinTable_of_isSome conditioned plan
      simp [succeeded]

/-- As a context a table fails on its own account only: never for want of a
condition. -/
theorem joinContext_table_error_iff {table : Table Term} :
    (joinContext (.table table) plan).result = .error error ↔
      ¬ (table.model = plan.root.model ∧ table.relation = plan.base) ∧
        table.condition = none ∧ (∀ entry ∈ plan.entries, entry.relation ≠ table.relation) ∧
        error = .relationNotInPlan table.relation.qualifier := by
  have notJoined_iff : table.relation ∉ plan.entries.map (·.relation) ↔
      ∀ entry ∈ plan.entries, entry.relation ≠ table.relation := by
    simp
  rw [← isRoot_iff, ← notJoined_iff]
  obtain ⟨root, ran⟩ | ⟨-, conditioned, ran⟩ | ⟨-, -, isJoined, ran⟩ |
      ⟨notRoot, unconditioned, notJoined, ran⟩ := joinContext_table_cases plan table
  · simp [ran, give, root]
  · obtain ⟨relation, succeeded⟩ := joinTable_of_isSome conditioned plan
    have declared : table.condition ≠ none := Option.isSome_iff_ne_none.1 conditioned
    simp [ran, succeeded, declared]
  · rw [ran]
    simp only [give, reduceCtorEq, false_iff]
    rintro ⟨-, -, notJoined, -⟩
    exact notJoined isJoined
  · have undeclared : table.condition = none := by simpa using unconditioned
    simp only [ran, fail, notRoot, undeclared, notJoined, Except.error.injEq, not_false_eq_true,
      true_and, Bool.false_eq_true]
    exact eq_comm

/-! ## Paths -/

/-- All that joining a path can do: it fails where its names cannot be
followed, gives the base if there are none, and joins the chain along them
otherwise, which starts at the root. -/
theorem joinPath_cases (directory : Directory) (names : List String) (plan : Plan) :
    (∃ error, Context.followAll directory (.table plan.root) names = .error error ∧
      joinPath directory names plan = fail error plan) ∨
    (Context.followAll directory (.table plan.root) names = .ok (.table plan.root) ∧
      joinPath directory names plan = give plan.base plan) ∨
    (∃ chain, Context.followAll directory (.table plan.root) names = .ok (.chain chain) ∧
      isRoot plan chain.root = true ∧ joinPath directory names plan = joinChain chain plan) := by
  cases followed : Context.followAll directory (.table plan.root) names with
  | error error => exact .inl ⟨error, rfl, by rw [joinPath, followed]⟩
  | ok reached =>
      obtain ⟨-, sameRoot⟩ := Context.followAll_eq_ok followed
      cases reached with
      | table table =>
          obtain rfl : table = plan.root := sameRoot
          exact .inr (.inl ⟨rfl, by rw [joinPath, followed]; rfl⟩)
      | chain chain =>
          have atRoot : chain.root = plan.root := sameRoot
          refine .inr (.inr ⟨chain, rfl, ?_, by rw [joinPath, followed]⟩)
          rw [atRoot]
          exact isRoot_root plan

/-- A path fails exactly where its names cannot be followed from the root. -/
theorem joinPath_error_iff {directory : Directory} {names : List String} :
    (joinPath directory names plan).result = .error error ↔
      ∃ name owner, directory.FirstUndeclared plan.root.scope names name owner ∧
        error = .associationNotFound owner.model name := by
  have followed_iff : Context.followAll directory (.table plan.root) names = .error error ↔
      ∃ name owner, directory.FirstUndeclared plan.root.scope names name owner ∧
        error = .associationNotFound owner.model name :=
    Context.followAll_eq_error_iff
  rw [← followed_iff]
  obtain ⟨cause, failed, ran⟩ | ⟨reached, ran⟩ | ⟨chain, reached, root, ran⟩ :=
    joinPath_cases directory names plan
  · simp [ran, fail, failed]
  · simp [ran, give, reached]
  · simp [ran, joinChain_of_isRoot root, reached]

theorem allOrNothing_joinPath (directory : Directory) (names : List String) :
    AllOrNothing (joinPath directory names) := by
  intro plan error failed
  obtain ⟨cause, -, ran⟩ | ⟨-, ran⟩ | ⟨chain, -, -, ran⟩ := joinPath_cases directory names plan
  · rw [ran] at failed
    cases failed
    exact ran
  · rw [ran] at failed
    cases failed
  · rw [ran] at failed ⊢
    exact allOrNothing_joinChain chain plan error failed

/-! ## All failures -/

/-- The joins fail exactly for the causes stated, with an error that names
the cause. Each failure leaves the plan as it was and logs nothing. Expressions
are built in the same way with a plan and without one. Without one this never
fails, so neither does any hop of a chain once its root is that of the plan. -/
theorem joins_fail_iff (plan : Plan) :
    (∀ (chain : Chain Term) (error : Error),
      (joinChain chain plan).result = .error error ↔
        (chain.root.model ≠ plan.root.model ∨ chain.root.relation ≠ plan.base) ∧
          error = .rootMismatch plan.base.qualifier chain.root.relation.qualifier) ∧
    (∀ (table : Table Term) (error : Error),
      (joinTable table plan).result = .error error ↔
        table.condition = none ∧ error = .missingJoinCondition table.relation.qualifier) ∧
    (∀ (directory : Directory) (names : List String) (error : Error),
      (joinPath directory names plan).result = .error error ↔
        ∃ name owner, directory.FirstUndeclared plan.root.scope names name owner ∧
          error = .associationNotFound owner.model name) ∧
    (∀ (table : Table Term) (error : Error),
      (joinContext (.table table) plan).result = .error error ↔
        ¬ (table.model = plan.root.model ∧ table.relation = plan.base) ∧
          table.condition = none ∧ (∀ entry ∈ plan.entries, entry.relation ≠ table.relation) ∧
          error = .relationNotInPlan table.relation.qualifier) ∧
    (∀ chain, AllOrNothing (joinChain chain)) ∧
    (∀ table, AllOrNothing (joinTable table)) ∧
    (∀ directory names, AllOrNothing (joinPath directory names)) ∧
    (∀ context, AllOrNothing (joinContext context)) ∧
    (∀ term : Term, term.build joinContext = lower term) ∧
    (∀ term : Term, term.lowerDetached = .ok term.detached) ∧
    (∀ chain : Chain Term, attemptChain chain = joinChain chain) ∧
    ∀ (walk : Plan.Walk) (hops : List (Hop Term)),
      ∃ arrived, hops.foldlM (Plan.Walk.attempt plan) walk = .ok arrived :=
  ⟨fun _ _ => joinChain_error_iff, fun _ _ => joinTable_error_iff,
    fun _ _ _ => joinPath_error_iff, fun _ _ => joinContext_table_error_iff,
    allOrNothing_joinChain, allOrNothing_joinTable, allOrNothing_joinPath,
    allOrNothing_joinContext, Term.build_joinContext, Term.lowerDetached_eq, attemptChain_eq,
    fun walk hops => ⟨_, Plan.foldlM_attempt plan walk hops⟩⟩

end Planning

end Joinery
