import Joinery.Proofs.Plan.Run

/-!
Contract: lowering a term, told as a sequence of joins.

`JoinedInTurn` says that contexts are joined one after the other, each into
the plan that the one before it left. `Term.Filled` says which expression a
term becomes when a relation is given for each of its contexts. A term is
lowered exactly if its contexts can be joined in turn. If one of them cannot,
its error is the answer, and the plan is the one that the contexts before it
left.

Owns: joins in turn, and the success and the failure of lowering.

Does not own: which contexts can be joined.
-/

namespace Joinery

open Query (Context Error Event Table Term)
open Sql (Expr Relation)

/-! ## Filled terms -/

namespace Query.Term

mutual

/-- The expression of a term whose contexts are given relations. Every
context takes one relation, from left to right, and everything else stays as
it is in the term. -/
inductive Filled : Term → List Relation → Expr → Prop where
  | value (bound : Value) : Filled (.value bound) [] (.value bound)
  | sql (fragment : String) : Filled (.sql fragment) [] (.literal fragment)
  | column (context : Context Term) (name : String) (relation : Relation) :
      Filled (.column ⟨context, name⟩) [relation]
        (.identifier ⟨some relation.qualifier, name⟩)
  | relation (context : Context Term) (relation : Relation) :
      Filled (.relation context) [relation] (.wildcard (some relation.qualifier))
  | binary {left right : Term} {first second : List Relation} {left' right' : Expr}
      (op : Sql.BinaryOperator) (atLeft : Filled left first left')
      (atRight : Filled right second right') :
      Filled (.binary op left right) (first ++ second) (.binary op left' right')
  | isNull {operand : Term} {relations : List Relation} {operand' : Expr}
      (negated : Bool) (atOperand : Filled operand relations operand') :
      Filled (.isNull operand negated) relations (.isNull operand' negated)
  | inList {operand : Term} {items : List Term} {first second : List Relation}
      {operand' : Expr} {items' : List Expr} (negated : Bool)
      (atOperand : Filled operand first operand') (atItems : FilledList items second items') :
      Filled (.inList operand items negated) (first ++ second) (.inList operand' items' negated)
  | call {args : List Term} {relations : List Relation} {args' : List Expr} (name : String)
      (star : Bool) (atArgs : FilledList args relations args') :
      Filled (.call name args star) relations (.call name args' star)
  | aliased {operand : Term} {relations : List Relation} {operand' : Expr}
      (aliasName : String) (atOperand : Filled operand relations operand') :
      Filled (.aliased operand aliasName) relations (.aliased operand' aliasName)

inductive FilledList : List Term → List Relation → List Expr → Prop where
  | nil : FilledList [] [] []
  | cons {term : Term} {others : List Term} {first second : List Relation} {expr : Expr}
      {exprs : List Expr} (atFirst : Filled term first expr)
      (atOthers : FilledList others second exprs) :
      FilledList (term :: others) (first ++ second) (expr :: exprs)

end

mutual

theorem filled_fill : (term : Term) → (relations : List Relation) →
    relations.length = term.contexts.length → Filled term relations (term.fill relations)
  | .value bound, _, sameLength => by
      obtain rfl := List.length_eq_zero_iff.1 sameLength
      exact .value bound
  | .sql fragment, _, sameLength => by
      obtain rfl := List.length_eq_zero_iff.1 sameLength
      exact .sql fragment
  | .column ⟨context, name⟩, _, sameLength => by
      obtain ⟨relation, rfl⟩ := List.length_eq_one_iff.1 sameLength
      exact .column context name relation
  | .relation context, _, sameLength => by
      obtain ⟨relation, rfl⟩ := List.length_eq_one_iff.1 sameLength
      exact .relation context relation
  | .binary op left right, relations, sameLength => by
      have bound : relations.length = left.contexts.length + right.contexts.length := by
        simpa [contexts] using sameLength
      have parts := Filled.binary op
        (filled_fill left (relations.take left.contexts.length) (by simp; omega))
        (filled_fill right (relations.drop left.contexts.length) (by simp; omega))
      rw [List.take_append_drop] at parts
      exact parts
  | .isNull operand negated, relations, sameLength =>
      .isNull negated (filled_fill operand relations sameLength)
  | .inList operand items negated, relations, sameLength => by
      have bound :
          relations.length = operand.contexts.length + (contextsList items).length := by
        simpa [contexts] using sameLength
      have parts := Filled.inList negated
        (filled_fill operand (relations.take operand.contexts.length) (by simp; omega))
        (filledList_fillList items (relations.drop operand.contexts.length) (by simp; omega))
      rw [List.take_append_drop] at parts
      exact parts
  | .call name args star, relations, sameLength =>
      .call name star (filledList_fillList args relations sameLength)
  | .aliased operand aliasName, relations, sameLength =>
      .aliased aliasName (filled_fill operand relations sameLength)

theorem filledList_fillList : (terms : List Term) → (relations : List Relation) →
    relations.length = (contextsList terms).length →
    FilledList terms relations (fillList terms relations)
  | [], _, sameLength => by
      obtain rfl := List.length_eq_zero_iff.1 sameLength
      exact .nil
  | term :: others, relations, sameLength => by
      have bound :
          relations.length = term.contexts.length + (contextsList others).length := by
        simpa [contextsList] using sameLength
      have parts := FilledList.cons
        (filled_fill term (relations.take term.contexts.length) (by simp; omega))
        (filledList_fillList others (relations.drop term.contexts.length) (by simp; omega))
      rw [List.take_append_drop] at parts
      exact parts

end

end Query.Term

/-! ## Joins in turn -/

namespace Planning

/-- The contexts can be joined one after the other, with these relations and
events, and this plan in the end. -/
inductive JoinedInTurn : Plan → List (Context Term) → List Relation → Plan → List Event → Prop
    where
  | nil (plan : Plan) : JoinedInTurn plan [] [] plan []
  | cons {plan middle after : Plan} {context : Context Term} {others : List (Context Term)}
      {relation : Relation} {relations : List Relation} {earlier later : List Event}
      (first : joinContext context plan = ⟨.ok relation, middle, earlier⟩)
      (rest : JoinedInTurn middle others relations after later) :
      JoinedInTurn plan (context :: others) (relation :: relations) after (earlier ++ later)

variable {plan left after : Plan} {contexts : List (Context Term)} {relations : List Relation}
  {error : Error} {events : List Event}

theorem JoinedInTurn.joinAll (inTurn : JoinedInTurn plan contexts relations after events) :
    joinAll contexts plan = ⟨.ok relations, after, events⟩ := by
  induction inTurn with
  | nil plan => rfl
  | cons first rest inductionHypothesis =>
      rw [joinAll_cons, bind_of_ok first, bind_of_ok inductionHypothesis]
      simp [pure, give]

theorem joinAll_of_failure {joined : List (Context Term)} {failing : Context Term}
    (inTurn : JoinedInTurn plan joined relations left events)
    (failed : (joinContext failing left).result = .error error) (others : List (Context Term)) :
    joinAll (joined ++ failing :: others) plan = ⟨.error error, left, events⟩ := by
  induction inTurn with
  | nil plan =>
      obtain ⟨_, _, ran⟩ := eq_of_result failed
      obtain ⟨rfl, rfl⟩ := joinContext_eq_error ran
      rw [List.nil_append, joinAll_cons, bind_of_error ran]
  | cons first rest inductionHypothesis =>
      rw [List.cons_append, joinAll_cons, bind_of_ok first,
        bind_of_error (inductionHypothesis failed)]

/-- Contexts can be joined in turn, or one of them is the first that cannot. -/
theorem joinedInTurn_or_fails (plan : Plan) (contexts : List (Context Term)) :
    (∃ relations after events, JoinedInTurn plan contexts relations after events) ∨
    ∃ joined failing others relations left events error,
      contexts = joined ++ failing :: others ∧
      JoinedInTurn plan joined relations left events ∧
      (joinContext failing left).result = .error error := by
  induction contexts generalizing plan with
  | nil => exact .inl ⟨[], plan, [], .nil plan⟩
  | cons context others inductionHypothesis =>
      rcases ran : joinContext context plan with ⟨result, middle, earlier⟩
      cases result with
      | error error =>
          refine .inr ⟨[], context, others, [], plan, [], error, rfl, .nil plan, ?_⟩
          rw [ran]
      | ok relation =>
          obtain ⟨relations, after, later, rest⟩ |
              ⟨joined, failing, others', relations, left, later, error, split, rest, failed⟩ :=
            inductionHypothesis middle
          · exact .inl ⟨_, _, _, .cons ran rest⟩
          · refine .inr ⟨context :: joined, failing, others', _, left, _, error, ?_,
              .cons ran rest, failed⟩
            rw [split, List.cons_append]

/-- A term is lowered by joining its contexts from left to right. If all of
them can be joined, the expression is the term filled with the relations that
joining gave, and the plan is the one after the last join. If one cannot be
joined, its error is the answer, and the plan is the one after the join
before it. One of the two is the case. -/
theorem lower_inTurn (plan : Plan) (term : Term) :
    (∀ relations after events, JoinedInTurn plan term.contexts relations after events →
      ∃ expr, term.Filled relations expr ∧ lower term plan = ⟨.ok expr, after, events⟩) ∧
    (∀ joined failing others relations left events error,
      term.contexts = joined ++ failing :: others →
      JoinedInTurn plan joined relations left events →
      (joinContext failing left).result = .error error →
      lower term plan = ⟨.error error, left, events⟩) ∧
    ((∃ relations after events, JoinedInTurn plan term.contexts relations after events) ∨
      ∃ joined failing others relations left events error,
        term.contexts = joined ++ failing :: others ∧
        JoinedInTurn plan joined relations left events ∧
        (joinContext failing left).result = .error error) := by
  refine ⟨?_, ?_, joinedInTurn_or_fails plan term.contexts⟩
  · intro relations after events inTurn
    have joined := inTurn.joinAll
    refine ⟨term.fill relations, term.filled_fill relations (length_of_joinAll joined), ?_⟩
    rw [lower_eq, bind_of_ok joined]
    simp [pure, give]
  · intro joined failing others relations left events error split inTurn failed
    have stopped := joinAll_of_failure inTurn failed others
    rw [← split] at stopped
    rw [lower_eq, bind_of_error stopped]

end Planning

namespace Staff

/-- A table of employees that no condition joins. -/
def stranger : Table Term :=
  employees.withAlias "stranger"

/-- Whether a manager and a stranger have the same name. -/
def sameNameAsStranger : Term :=
  .binary .eq (.column ⟨.chain manager, "name"⟩) (.column ⟨.table stranger, "name"⟩)

/-- The manager is joined and then the boss. A stranger cannot be joined, and
the manager, who was joined before, stays in the plan. -/
theorem sameName_inTurn :
    (∃ after events,
      Planning.JoinedInTurn (.ofRoot employees) sameName.contexts
        [managerRelation, boss.target.relation] after events ∧
      ∃ expr, sameName.Filled [managerRelation, boss.target.relation] expr ∧
        Planning.lower sameName (.ofRoot employees) = ⟨.ok expr, after, events⟩) ∧
    ∃ left events,
      Planning.JoinedInTurn (.ofRoot employees) [.chain manager] [managerRelation] left events ∧
      (Planning.joinContext (.table stranger) left).result =
        .error (.relationNotInPlan "stranger") ∧
      Planning.lower sameNameAsStranger (.ofRoot employees) =
        ⟨.error (.relationNotInPlan "stranger"), left, events⟩ := by
  have managerJoined : Planning.joinContext (.chain manager) (.ofRoot employees) =
      ⟨.ok managerRelation, _, _⟩ := rfl
  have inTurn : Planning.JoinedInTurn (.ofRoot employees) sameName.contexts
      [managerRelation, boss.target.relation] _ _ := .cons managerJoined (.cons rfl (.nil _))
  have upToManager : Planning.JoinedInTurn (.ofRoot employees) [.chain manager]
      [managerRelation] _ _ := .cons managerJoined (.nil _)
  obtain ⟨succeeds, -⟩ := Planning.lower_inTurn (.ofRoot employees) sameName
  obtain ⟨-, fails, -⟩ := Planning.lower_inTurn (.ofRoot employees) sameNameAsStranger
  exact ⟨⟨_, _, inTurn, succeeds _ _ _ inTurn⟩,
    _, _, upToManager, rfl, fails _ _ [] _ _ _ _ rfl upToManager rfl⟩

end Staff

end Joinery
