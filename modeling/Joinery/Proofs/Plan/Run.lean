import Joinery.Proofs.Plan.Growth
import Mathlib.Data.List.Induction

/-!
Contract: runs of operations on a plan.

A run starts from the plan that joins nothing and performs operations one
after the other, whether they succeed or fail. It keeps the plan, the log,
and the joins that were carried out: every chain and every conditioned table
that was joined, in order, with the relation that was given for it. Lowering
a term carries out the joins of its contexts, from left to right, up to the
first that fails.

An operation changes the plan and the log by such joins only, so whatever a
join of a chain and a join of a table keep holds after every run:
`Kept.of`.

Owns: operations, runs, the joins carried out, and induction over runs.

Does not own: what particular joins keep.
-/

namespace Joinery

open Query (Chain Context Directory Event Table Term)
open Sql (Relation)

/-- Anything that can be asked of a plan. -/
inductive Operation where
  | joinPath (directory : Directory) (names : List String)
  | joinChain (chain : Chain Term)
  | joinTable (table : Table Term)
  | joinContext (context : Context Term)
  | lower (term : Term)

/-- Performs the operation, without its result. -/
def Operation.perform : Operation → Planning Unit
  | .joinPath directory names => do
      let _ ← Planning.joinPath directory names
      pure ()
  | .joinChain chain => do
      let _ ← Planning.joinChain chain
      pure ()
  | .joinTable table => do
      let _ ← Planning.joinTable table
      pure ()
  | .joinContext context => do
      let _ ← Planning.joinContext context
      pure ()
  | .lower term => do
      let _ ← Planning.lower term
      pure ()

theorem Operation.growing_perform (operation : Operation) :
    Planning.Growing operation.perform := by
  cases operation with
  | joinPath directory names => exact .bind (.joinPath directory names) fun _ => .give ()
  | joinChain chain => exact .bind (.joinChain chain) fun _ => .give ()
  | joinTable table => exact .bind (.joinTable table) fun _ => .give ()
  | joinContext context => exact .bind (.joinContext context) fun _ => .give ()
  | lower term => exact .bind (.lower term) fun _ => .give ()

/-! ## Joins carried out -/

/-- A chain or a conditioned table that was joined, and the relation that
was given for it. -/
structure Joined where
  source : Context Term
  relation : Relation

/-- The join of a source, if it succeeded. -/
def Joined.ofOutcome (source : Context Term) (outcome : Outcome Relation) : List Joined :=
  match outcome.result with
  | .ok relation => [⟨source, relation⟩]
  | .error _ => []

/-- The join that a context needs. The root needs none, and neither does a
table without a condition, which must be there already. -/
def Joined.ofContext (plan : Plan) : Context Term → List Joined
  | .chain chain => ofOutcome (.chain chain) (Planning.joinChain chain plan)
  | .table table =>
      if Planning.isRoot plan table then []
      else if table.condition.isSome then
        ofOutcome (.table table) (Planning.joinTable table plan)
      else []

/-- The joins that contexts need in turn, up to the first that fails. -/
def Joined.ofContexts (plan : Plan) : List (Context Term) → List Joined
  | [] => []
  | context :: others =>
      let outcome := Planning.joinContext context plan
      ofContext plan context ++
        match outcome.result with
        | .ok _ => ofContexts outcome.plan others
        | .error _ => []

/-- The joins that the operation carries out on a plan. -/
def Operation.joined (plan : Plan) : Operation → List Joined
  | .joinPath directory names =>
      match Context.followAll directory (.table plan.root) names with
      | .ok (.chain chain) => Joined.ofContext plan (.chain chain)
      | .ok (.table _) => []
      | .error _ => []
  | .joinChain chain => Joined.ofContext plan (.chain chain)
  | .joinTable table => Joined.ofOutcome (.table table) (Planning.joinTable table plan)
  | .joinContext context => Joined.ofContext plan context
  | .lower term => Joined.ofContexts plan term.contexts

/-! ## Runs -/

/-- Where a run stands: the plan, all events so far, and all joins so far. -/
structure Run where
  plan : Plan
  log : List Event
  joined : List Joined

namespace Run

/-- The run in which nothing was performed yet. -/
def start (root : Table Term) : Run :=
  { plan := .ofRoot root, log := [], joined := [] }

/-- Goes on with what an operation gave and the joins that it carried out. -/
def extend {α : Type} (run : Run) (outcome : Outcome α) (joined : List Joined) : Run :=
  { plan := outcome.plan
    log := run.log ++ outcome.events
    joined := run.joined ++ joined }

/-- Performs one more operation. -/
def next (run : Run) (operation : Operation) : Run :=
  run.extend (operation.perform run.plan) (operation.joined run.plan)

/-- The run of some operations on a root. -/
def of (root : Table Term) (operations : List Operation) : Run :=
  operations.foldl next (start root)

theorem plan_next (run : Run) (operation : Operation) :
    (run.next operation).plan = (operation.perform run.plan).plan := rfl

theorem of_append (root : Table Term) (earlier later : List Operation) :
    of root (earlier ++ later) = later.foldl next (of root earlier) :=
  List.foldl_append

theorem of_concat (root : Table Term) (operations : List Operation) (operation : Operation) :
    of root (operations ++ [operation]) = (of root operations).next operation := by
  rw [of_append]
  rfl

/-- A plan only grows while the run goes on. -/
theorem grows_append (root : Table Term) (earlier later : List Operation) :
    (of root earlier).plan.Grows (of root (earlier ++ later)).plan := by
  induction later using List.reverseRecOn with
  | nil =>
      rw [List.append_nil]
      exact .refl _
  | append_singleton later operation inductionHypothesis =>
      rw [← List.append_assoc, of_concat]
      exact inductionHypothesis.trans (operation.growing_perform _)

/-- What an operation leaves grows into every later plan of the run. -/
theorem grows_of_performed (root : Table Term) (before later : List Operation)
    {operation : Operation} {after : Plan}
    (performed : (operation.perform (of root before).plan).plan = after) :
    after.Grows (of root (before ++ operation :: later)).plan := by
  have grows := grows_append root (before ++ [operation]) later
  rwa [of_concat, plan_next, performed, List.append_assoc, List.singleton_append] at grows

@[simp]
theorem root_of (root : Table Term) (operations : List Operation) :
    (of root operations).plan.root = root :=
  (grows_append root [] operations).root

@[simp]
theorem base_of (root : Table Term) (operations : List Operation) :
    (of root operations).plan.base = root.relation :=
  (grows_append root [] operations).base

/-- A result that is computed from another leaves the run as it is. -/
theorem extend_bind_pure {α β : Type} (run : Run) (operation : Planning α) (change : α → β)
    (plan : Plan) (joined : List Joined) :
    run.extend ((operation >>= fun value => pure (change value)) plan) joined =
      run.extend (operation plan) joined := by
  rcases ran : operation plan with ⟨result, after, events⟩
  cases result with
  | ok value =>
      rw [Planning.bind_of_ok ran]
      simp [extend, pure, Planning.give]
  | error error =>
      rw [Planning.bind_of_error ran]
      rfl

end Run

/-! ## Induction over runs -/

/-- The property is kept by joining a chain and by joining a table. -/
structure Kept (holds : Run → Prop) : Prop where
  chain {run : Run} {chain : Chain Term} {relation : Relation} {after : Plan}
    {events : List Event} (before : holds run)
    (joined : Planning.joinChain chain run.plan = ⟨.ok relation, after, events⟩) :
    holds ⟨after, run.log ++ events, run.joined ++ [⟨.chain chain, relation⟩]⟩
  table {run : Run} {table : Table Term} {relation : Relation} {after : Plan}
    {events : List Event} (before : holds run)
    (joined : Planning.joinTable table run.plan = ⟨.ok relation, after, events⟩) :
    holds ⟨after, run.log ++ events, run.joined ++ [⟨.table table, relation⟩]⟩

namespace Kept

variable {holds : Run → Prop} (kept : Kept holds) {run : Run}
include kept

theorem ofChain (before : holds run) (chain : Chain Term) :
    holds (run.extend (Planning.joinChain chain run.plan)
      (Joined.ofOutcome (.chain chain) (Planning.joinChain chain run.plan))) := by
  rcases ran : Planning.joinChain chain run.plan with ⟨result, after, events⟩
  cases result with
  | ok relation => exact kept.chain before ran
  | error error =>
      obtain ⟨rfl, rfl⟩ := Planning.joinChain_eq_error ran
      simpa [Run.extend, Joined.ofOutcome] using before

theorem ofTable (before : holds run) (table : Table Term) :
    holds (run.extend (Planning.joinTable table run.plan)
      (Joined.ofOutcome (.table table) (Planning.joinTable table run.plan))) := by
  rcases ran : Planning.joinTable table run.plan with ⟨result, after, events⟩
  cases result with
  | ok relation => exact kept.table before ran
  | error error =>
      obtain ⟨rfl, rfl⟩ := Planning.joinTable_eq_error ran
      simpa [Run.extend, Joined.ofOutcome] using before

theorem ofContext (before : holds run) (context : Context Term) :
    holds (run.extend (Planning.joinContext context run.plan)
      (Joined.ofContext run.plan context)) := by
  cases context with
  | chain chain => exact kept.ofChain before chain
  | table table =>
      have unchanged (result : Except Query.Error Relation) :
          holds (run.extend ⟨result, run.plan, []⟩ []) := by
        simpa [Run.extend] using before
      obtain ⟨root, ran⟩ | ⟨notRoot, conditioned, ran⟩ | ⟨notRoot, unconditioned, -, ran⟩ |
          ⟨notRoot, unconditioned, -, ran⟩ := Planning.joinContext_table_cases run.plan table
      · rw [ran, Joined.ofContext, if_pos root]
        exact unchanged _
      · rw [ran, Joined.ofContext, if_neg (by simp [notRoot]), if_pos conditioned]
        exact kept.ofTable before table
      all_goals
        rw [ran, Joined.ofContext, if_neg (by simp [notRoot]), if_neg (by simp [unconditioned])]
        exact unchanged _

theorem ofContexts (before : holds run) (contexts : List (Context Term)) :
    holds (run.extend (Planning.joinAll contexts run.plan)
      (Joined.ofContexts run.plan contexts)) := by
  induction contexts generalizing run with
  | nil =>
      show holds ⟨run.plan, run.log ++ [], run.joined ++ []⟩
      simpa using before
  | cons context others inductionHypothesis =>
      -- What was joined before a failure stays, so the property is needed of
      -- the first join in either case.
      have first := kept.ofContext before context
      rw [Planning.joinAll_cons, Joined.ofContexts]
      rcases ran : Planning.joinContext context run.plan with ⟨result, after, events⟩
      rw [ran] at first
      cases result with
      | ok relation =>
          have second := inductionHypothesis first
          rw [Planning.bind_of_ok ran]
          rw [← Run.extend_bind_pure _ _ (relation :: ·)] at second
          simpa [Run.extend] using second
      | error error =>
          rw [Planning.bind_of_error ran]
          simpa [Run.extend] using first

/-- What joins keep is kept by every operation. -/
theorem next (before : holds run) (operation : Operation) : holds (run.next operation) := by
  cases operation with
  | joinPath directory names =>
      simp only [Run.next, Operation.perform, Run.extend_bind_pure, Operation.joined,
        Planning.joinPath]
      cases Context.followAll directory (.table run.plan.root) names with
      | ok reached =>
          cases reached with
          | table table => simpa [Run.extend, Planning.give] using before
          | chain chain => exact kept.ofChain before chain
      | error error => simpa [Run.extend, Planning.fail] using before
  | joinChain chain =>
      rw [Run.next, Operation.perform, Run.extend_bind_pure]
      exact kept.ofChain before chain
  | joinTable table =>
      rw [Run.next, Operation.perform, Run.extend_bind_pure]
      exact kept.ofTable before table
  | joinContext context =>
      rw [Run.next, Operation.perform, Run.extend_bind_pure]
      exact kept.ofContext before context
  | lower term =>
      rw [Run.next, Operation.perform, Run.extend_bind_pure, Planning.lower_eq,
        Run.extend_bind_pure]
      exact kept.ofContexts before term.contexts

omit run in
/-- What holds at the start and is kept by joins holds after every run. -/
theorem of {root : Table Term} (start : holds (.start root)) (operations : List Operation) :
    holds (.of root operations) := by
  induction operations using List.reverseRecOn with
  | nil => exact start
  | append_singleton operations operation inductionHypothesis =>
      rw [Run.of_concat]
      exact kept.next inductionHypothesis operation

end Kept

/-! ## A root with a chain to itself -/

namespace Staff

/-- The table of employees, who have a manager among them. -/
def employees : Table Term :=
  .ofScope { position := 0, model := "Employee", table := { name := "employees" } }

/-- The chain to the manager of an employee. -/
def manager : Chain Term :=
  .start employees
    { name := "manager"
      kind := .belongsTo
      target := employees.scope
      foreignKey := "manager_id"
      primaryKey := "id" }

/-- The same chain, with an alias for the manager. -/
def boss : Chain Term :=
  manager.mapTarget (·.withAlias "boss")

/-- The chain to the manager of a manager. -/
def director : Chain Term :=
  manager.extend manager.last.link

/-- The relation of the manager, under an automatic alias. -/
def managerRelation : Relation :=
  { table := { name := "employees" }, aliasName := some "manager_employees" }

/-- Whether a manager and a boss have the same name. -/
def sameName : Term :=
  .binary .eq (.column ⟨.chain manager, "name"⟩) (.column ⟨.chain boss, "name"⟩)

end Staff

end Joinery
