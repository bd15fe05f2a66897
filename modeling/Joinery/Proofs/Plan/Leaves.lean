import Joinery.Plan.Lowering

/-!
Contract: lowering a term is joining its contexts from left to right.

`Term.contexts` lists the contexts of the columns and relations in a term in
the order in which they are read. `Term.fill` is the expression of a term
when relations for these contexts are given, one after the other. A detached
expression is the term filled with the contexts' own relations. Lowering
joins the contexts in order and fills the term with the relations that
joining gave: `lower_eq`.

Owns: the leaves of terms, and lowering as a sequence of joins.

Does not own: what joining a context does to a plan.
-/

namespace Joinery

open Query (Context Term)
open Sql (Expr Relation)

namespace Query.Term

mutual

/-- The contexts that a term refers to, from left to right. -/
def contexts : Term → List (Context Term)
  | .value _ => []
  | .sql _ => []
  | .column reference => [reference.context]
  | .relation context => [context]
  | .binary _ left right => contexts left ++ contexts right
  | .isNull operand _ => contexts operand
  | .inList operand items _ => contexts operand ++ contextsList items
  | .call _ args _ => contextsList args
  | .aliased operand _ => contexts operand
termination_by structural x => x

def contextsList : List Term → List (Context Term)
  | [] => []
  | term :: others => contexts term ++ contextsList others
termination_by structural x => x

end

mutual

/-- The expression of a term with each reference qualified by the relation
given for its context. Relations are given in the order of the contexts. -/
def fill : Term → List Relation → Expr
  | .value bound, _ => .value bound
  | .sql fragment, _ => .literal fragment
  | .column reference, relations =>
      .identifier ⟨relations.head?.map Relation.qualifier, reference.name⟩
  | .relation _, relations => .wildcard (relations.head?.map Relation.qualifier)
  | .binary op left right, relations =>
      .binary op (fill left (relations.take (contexts left).length))
        (fill right (relations.drop (contexts left).length))
  | .isNull operand negated, relations => .isNull (fill operand relations) negated
  | .inList operand items negated, relations =>
      .inList (fill operand (relations.take (contexts operand).length))
        (fillList items (relations.drop (contexts operand).length)) negated
  | .call name args star, relations => .call name (fillList args relations) star
  | .aliased operand aliasName, relations => .aliased (fill operand relations) aliasName
termination_by structural x => x

def fillList : List Term → List Relation → List Expr
  | [], _ => []
  | term :: others, relations =>
      fill term (relations.take (contexts term).length) ::
        fillList others (relations.drop (contexts term).length)
termination_by structural x => x

end

mutual

/-- A detached term is filled with the relations of its own contexts. -/
theorem detached_eq_fill : (term : Term) →
    term.detached = term.fill (term.contexts.map Context.relation)
  | .value bound => rfl
  | .sql fragment => rfl
  | .column reference => rfl
  | .relation context => rfl
  | .binary op left right => by
      simp [detached, fill, contexts, detached_eq_fill left, detached_eq_fill right]
  | .isNull operand negated => by
      simp [detached, fill, contexts, detached_eq_fill operand]
  | .inList operand items negated => by
      simp [detached, fill, contexts, detached_eq_fill operand, detachedList_eq_fillList items]
  | .call name args star => by
      simp [detached, fill, contexts, detachedList_eq_fillList args]
  | .aliased operand aliasName => by
      simp [detached, fill, contexts, detached_eq_fill operand]

theorem detachedList_eq_fillList : (terms : List Term) →
    detachedList terms = fillList terms ((contextsList terms).map Context.relation)
  | [] => rfl
  | term :: others => by
      simp [detachedList, fillList, contextsList, detached_eq_fill term,
        detachedList_eq_fillList others]

end

end Query.Term

namespace Planning

open Query.Term (contextsList fillList)

/-- Joins contexts in order. -/
def joinAll (contexts : List (Context Term)) : Planning (List Relation) :=
  contexts.mapM joinContext

theorem joinAll_cons (context : Context Term) (others : List (Context Term)) :
    joinAll (context :: others) = (do
      let relation ← joinContext context
      let relations ← joinAll others
      pure (relation :: relations)) :=
  List.mapM_cons

/-- If all contexts are joined, so are the first one and then the others. -/
theorem joinAll_cons_eq_ok {context : Context Term} {others : List (Context Term)}
    {plan after : Plan} {relations : List Relation} {events : List Query.Event}
    (joined : joinAll (context :: others) plan = ⟨.ok relations, after, events⟩) :
    ∃ relation further middle earlier later,
      joinContext context plan = ⟨.ok relation, middle, earlier⟩ ∧
      joinAll others middle = ⟨.ok further, after, later⟩ ∧ relations = relation :: further := by
  rw [joinAll_cons] at joined
  obtain ⟨relation, middle, earlier, _, first, rest, -⟩ := bind_eq_ok joined
  obtain ⟨further, _, later, _, second, given, -⟩ := bind_eq_ok rest
  cases given
  exact ⟨relation, further, middle, earlier, later, first, second, rfl⟩

theorem joinAll_append (left right : List (Context Term)) :
    joinAll (left ++ right) = (do
      let first ← joinAll left
      let second ← joinAll right
      pure (first ++ second)) :=
  List.mapM_append

/-- Every context gets one relation. -/
theorem length_of_joinAll {contexts : List (Context Term)} {plan after : Plan}
    {relations : List Relation} {events : List Query.Event}
    (joined : joinAll contexts plan = ⟨.ok relations, after, events⟩) :
    relations.length = contexts.length := by
  induction contexts generalizing plan relations events with
  | nil =>
      cases joined
      rfl
  | cons context others inductionHypothesis =>
      obtain ⟨relation, further, middle, _, _, -, second, rfl⟩ := joinAll_cons_eq_ok joined
      simp [inductionHypothesis second]

/-- Joining the contexts of two parts and splitting the relations is joining
one part after the other. -/
theorem joinAll_append_bind {α : Type} (left right : List (Context Term))
    (next : List Relation → List Relation → Planning α) :
    (do
      let relations ← joinAll (left ++ right)
      next (relations.take left.length) (relations.drop left.length)) = (do
      let first ← joinAll left
      let second ← joinAll right
      next first second) := by
  simp only [joinAll_append, bind_assoc, pure_bind]
  -- The split is right only because the left part gave one relation for each
  -- of its contexts, which holds of the results that it can give.
  refine bind_congr_of_ok fun plan first joined => ?_
  obtain ⟨_, _, ran⟩ := eq_of_result joined
  simp [← length_of_joinAll ran]

mutual

/-- Lowering joins the contexts of the term and fills the term with the
relations. -/
theorem lower_eq : (term : Term) →
    lower term = (do
      let relations ← joinAll term.contexts
      pure (term.fill relations))
  | .value bound => rfl
  | .sql fragment => rfl
  | .column column => by
      simp [lower, Term.contexts, Term.fill, joinAll, give_eq_pure, Expr.qualified]
  | .relation context => by
      simp [lower, Term.contexts, Term.fill, joinAll, give_eq_pure]
  | .binary op left right => by
      rw [lower, lower_eq left, lower_eq right]
      simp only [bind_assoc, pure_bind, give_eq_pure]
      exact (joinAll_append_bind _ _ fun first second =>
        pure (Expr.binary op (left.fill first) (right.fill second))).symm
  | .isNull operand negated => by
      rw [lower, lower_eq operand]
      simp only [bind_assoc, pure_bind, give_eq_pure]
      rfl
  | .inList operand items negated => by
      rw [lower, lower_eq operand, lowerList_eq items]
      simp only [bind_assoc, pure_bind, give_eq_pure]
      exact (joinAll_append_bind _ _ fun first second =>
        pure (Expr.inList (operand.fill first) (fillList items second) negated)).symm
  | .call name args star => by
      rw [lower, lowerList_eq args]
      simp only [bind_assoc, pure_bind, give_eq_pure]
      rfl
  | .aliased operand aliasName => by
      rw [lower, lower_eq operand]
      simp only [bind_assoc, pure_bind, give_eq_pure]
      rfl

theorem lowerList_eq : (terms : List Term) →
    lowerList terms = (do
      let relations ← joinAll (contextsList terms)
      pure (fillList terms relations))
  | [] => rfl
  | term :: others => by
      rw [lowerList, lower_eq term, lowerList_eq others]
      simp only [bind_assoc, pure_bind, give_eq_pure]
      exact (joinAll_append_bind _ _ fun first second =>
        pure (term.fill first :: fillList others second)).symm

end

end Planning

end Joinery
