import Joinery.Plan.Lowering

/-!
Contract: lowering and joining with failures at every place where one is
conceivable.

Building an expression asks for the relation of every context in a term and
stops at the first that is not given. With the relations that a plan gives
this is lowering (`build_joinContext`). Without a plan every context has its
own relation, so building never fails and gives the detached expression
(`lowerDetached_eq`).

A chain is joined hop by hop, and each hop needs a condition that is built in
this way while entries are staged already. Such an attempt keeps the events
up to its failure and commits nothing. Since conditions are built detached,
it always succeeds and is the walk along the hops (`attemptChain_eq`).

Owns: expressions built in a monad, and joins that might fail at a hop.

Does not own: which joins fail.
-/

namespace Joinery

open Query (Chain Context Error Event Hop Term)
open Sql (Expr Relation)

/-! ## Building expressions -/

namespace Query.Term

section Build

variable {m : Type → Type} [Monad m] (relationOf : Context Term → m Relation)

mutual

/-- The expression of a term, built from left to right. Every column and every
relation is qualified by what is found for its context. -/
def build : Term → m Expr
  | .value bound => pure (.value bound)
  | .sql fragment => pure (.literal fragment)
  | .column reference => do
      let relation ← relationOf reference.context
      pure (.identifier ⟨some relation.qualifier, reference.name⟩)
  | .relation context => do
      let relation ← relationOf context
      pure (.wildcard (some relation.qualifier))
  | .binary op left right => do
      let left ← build left
      let right ← build right
      pure (.binary op left right)
  | .isNull operand negated => do
      let operand ← build operand
      pure (.isNull operand negated)
  | .inList operand items negated => do
      let operand ← build operand
      let items ← buildList items
      pure (.inList operand items negated)
  | .call name args star => do
      let args ← buildList args
      pure (.call name args star)
  | .aliased operand aliasName => do
      let operand ← build operand
      pure (.aliased operand aliasName)
termination_by structural x => x

/-- The expressions of terms, built in order. -/
def buildList : List Term → m (List Expr)
  | [] => pure []
  | term :: others => do
      let expr ← build term
      let exprs ← buildList others
      pure (expr :: exprs)
termination_by structural x => x

end

end Build

mutual

/-- Lowering is building with the relations that a plan gives. -/
theorem build_joinContext : (term : Term) → build Planning.joinContext term = Planning.lower term
  | .value bound => rfl
  | .sql fragment => rfl
  | .column reference => rfl
  | .relation context => rfl
  | .binary op left right => by
      rw [build, Planning.lower, build_joinContext left, build_joinContext right]
      rfl
  | .isNull operand negated => by
      rw [build, Planning.lower, build_joinContext operand]
      rfl
  | .inList operand items negated => by
      rw [build, Planning.lower, build_joinContext operand, buildList_joinContext items]
      rfl
  | .call name args star => by
      rw [build, Planning.lower, buildList_joinContext args]
      rfl
  | .aliased operand aliasName => by
      rw [build, Planning.lower, build_joinContext operand]
      rfl

theorem buildList_joinContext : (terms : List Term) →
    buildList Planning.joinContext terms = Planning.lowerList terms
  | [] => rfl
  | term :: others => by
      rw [buildList, Planning.lowerList, build_joinContext term, buildList_joinContext others]
      rfl

end

/-- The relation of a context where no plan is at hand: its own. -/
def ownRelation (context : Context Term) : Except Error Relation :=
  .ok context.relation

/-- The expression of a term where no plan is at hand. -/
def lowerDetached (term : Term) : Except Error Expr :=
  build ownRelation term

mutual

theorem build_ownRelation : (term : Term) → build ownRelation term = .ok term.detached
  | .value bound => rfl
  | .sql fragment => rfl
  | .column reference => rfl
  | .relation context => rfl
  | .binary op left right => by
      rw [build, build_ownRelation left, build_ownRelation right]
      rfl
  | .isNull operand negated => by
      rw [build, build_ownRelation operand]
      rfl
  | .inList operand items negated => by
      rw [build, build_ownRelation operand, buildList_ownRelation items]
      rfl
  | .call name args star => by
      rw [build, buildList_ownRelation args]
      rfl
  | .aliased operand aliasName => by
      rw [build, build_ownRelation operand]
      rfl

theorem buildList_ownRelation : (terms : List Term) →
    buildList ownRelation terms = .ok (detachedList terms)
  | [] => rfl
  | term :: others => by
      rw [buildList, build_ownRelation term, buildList_ownRelation others]
      rfl

end

/-- Without a plan no term fails to be lowered. -/
theorem lowerDetached_eq (term : Term) : term.lowerDetached = .ok term.detached :=
  build_ownRelation term

end Query.Term

/-! ## Joining chains -/

namespace Plan

/-- The condition on which a hop is joined, if its expression can be built. -/
def hopCondition? (hop : Hop Term) (owner target : Relation) : Except Error Expr :=
  match hop.table.condition, hop.link.condition with
  | some condition, _ => condition.lowerDetached
  | none, some condition => condition.lowerDetached
  | none, none => .ok (hop.link.keyCondition owner target)

theorem hopCondition?_eq (hop : Hop Term) (owner target : Relation) :
    hopCondition? hop owner target = .ok (hopCondition hop owner target) := by
  unfold hopCondition? hopCondition
  cases hop.table.condition with
  | some condition => exact condition.lowerDetached_eq
  | none =>
      cases hop.link.condition with
      | some condition => exact condition.lowerDetached_eq
      | none => rfl

namespace Walk

/-- Goes one hop on, unless the condition of the hop cannot be built. The
failure keeps the events up to it. -/
def attempt (plan : Plan) (walk : Walk) (hop : Hop Term) : Except (Error × List Event) Walk :=
  match walk.find? plan (walk.keyTo hop) with
  | some entry =>
      match hopCondition? hop walk.owner entry.relation with
      | .ok on =>
          .ok
            { staged := walk.staged
              owner := entry.relation
              path := walk.pathTo hop
              events := walk.events ++ [entry.joinedAgain hop.table.join on] }
      | .error error => .error (error, walk.events)
  | none =>
      let choice := relationFor (walk.taken plan) hop walk.owner
      match hopCondition? hop walk.owner choice.1 with
      | .ok on =>
          .ok
            { staged := walk.staged ++
                [(walk.keyTo hop, ⟨choice.1, hop.table.join, on, walk.pathTo hop⟩)]
              owner := choice.1
              path := walk.pathTo hop
              events := walk.events ++ choice.2 }
      | .error error => .error (error, walk.events ++ choice.2)

theorem attempt_eq (plan : Plan) (walk : Walk) (hop : Hop Term) :
    walk.attempt plan hop = .ok (walk.step plan hop) := by
  unfold attempt step
  cases walk.find? plan (walk.keyTo hop) <;> simp only [hopCondition?_eq] <;> rfl

end Walk

/-- Once entries are being staged, every hop can be made. -/
theorem foldlM_attempt (plan : Plan) (walk : Walk) (hops : List (Hop Term)) :
    hops.foldlM (Walk.attempt plan) walk = .ok (hops.foldl (Walk.step plan) walk) := by
  have total : Walk.attempt plan = fun walk hop => .ok (walk.step plan hop) := by
    funext walk hop
    exact walk.attempt_eq plan hop
  rw [total]
  exact List.foldlM_pure

end Plan

namespace Planning

/-- Joins every hop of a chain, unless one of them fails. The staged entries
are added only when the last hop is done. -/
def attemptChain (chain : Chain Term) : Planning Relation := fun plan =>
  if isRoot plan chain.root then
    match chain.hops.foldlM (Plan.Walk.attempt plan) (.start plan) with
    | .ok walk =>
        { result := .ok walk.owner
          plan := plan.commit walk.staged
          events := walk.events ++ walk.staged.map fun arrival => arrival.2.appended }
    | .error (error, events) => { result := .error error, plan, events }
  else
    { result := .error (.rootMismatch plan.base.qualifier chain.root.relation.qualifier)
      plan
      events := [] }

theorem attemptChain_eq (chain : Chain Term) : attemptChain chain = joinChain chain := by
  funext plan
  simp only [attemptChain, joinChain, Plan.foldlM_attempt]
  rfl

end Planning

end Joinery
