import Joinery.Catalog
import Joinery.Proofs.Plan.Failures
import Joinery.Proofs.Plan.Stability
import Joinery.Proofs.Query.Paths

/-!
Contract: dotted paths, single associations and joined paths agree.

A dotted path, the associations followed one by one, and the names given to a
join all reach the same chain, or fail at the same name. A column at the end
of the dotted path is therefore a column of the chain that was joined, and
lowering it finds the relation that the join gave.

Owns: the agreement of the three ways along association names.

Does not own: what is joined for a chain, and the failures of joins.
-/

namespace Joinery

open Query (Chain Column Context Directory Event Table Term)
open Sql (Relation)

namespace Planning

variable {directory : Directory} {names : List String} {chain : Chain Term}
  {plan after : Plan} {relation : Relation} {events : List Event}

/-! ## Paths as chains -/

/-- Joining a path is joining the chain that its names reach from the root. -/
theorem joinPath_of_reaches
    (reaches : Context.Reaches directory (.table plan.root) names (.chain chain)) :
    joinPath directory names plan = joinChain chain plan := by
  rw [joinPath, Context.followAll_eq_ok_iff.2 reaches]

theorem joinPath_of_firstUndeclared {name : String} {owner : Query.Scope}
    (first : directory.FirstUndeclared plan.root.scope names name owner) :
    joinPath directory names plan = fail (.associationNotFound owner.model name) plan := by
  have followed : Context.followAll directory (.table plan.root) names =
      .error (.associationNotFound owner.model name) :=
    Context.followAll_of_firstUndeclared first
  rw [joinPath, followed]

/-- A path of some names that is joined is the join of a chain. -/
theorem reaches_of_joinPath (nonempty : names ≠ [])
    (joined : joinPath directory names plan = ⟨.ok relation, after, events⟩) :
    ∃ chain, Context.Reaches directory (.table plan.root) names (.chain chain) ∧
      joinChain chain plan = ⟨.ok relation, after, events⟩ := by
  obtain ⟨error, -, ran⟩ | ⟨followed, -⟩ | ⟨chain, followed, -, ran⟩ :=
    joinPath_cases directory names plan
  · rw [ran] at joined
    cases joined
  · obtain ⟨chain, isChain⟩ := (Context.followAll_eq_ok_iff.1 followed).exists_chain nonempty
    cases isChain
  · exact ⟨chain, Context.followAll_eq_ok_iff.1 followed, ran ▸ joined⟩

/-! ## Columns of joined chains -/

/-- A column of a chain that was joined is qualified by the relation that was
given for the chain, and nothing is joined for it. -/
theorem lower_column_of_joinChain (consistent : plan.Consistent)
    (joined : joinChain chain plan = ⟨.ok relation, after, events⟩) (name : String) :
    ∃ told, lower (.column ⟨.chain chain, name⟩) after =
      ⟨.ok (.qualified relation.qualifier name), after, told⟩ := by
  have effect := consistent.joinChain consistent.keys_eq_eraseDups joined
  obtain ⟨told, again⟩ :=
    settled_joinChain consistent joined after effect.consistent (.refl after)
  refine ⟨told ++ [], ?_⟩
  have ran : joinContext (.chain chain) after = ⟨.ok relation, after, told⟩ := again
  rw [lower, bind_of_ok ran]
  rfl

end Planning

namespace Run

/-- The ways along association names agree, for names of any directory.

A dotted path is looked up by following the names before some dot one by one
and looking the rest up where they lead, and it fails at the first of them
that is not declared. Joining a path of some names does what joining the chain
does that is reached by following them from the root, and fails likewise. If
it succeeds and a name after the dotted ones is the name of a column there,
lowering the column qualifies it by the given relation and leaves the plan as
it is. -/
theorem paths_agree (directory : Directory) :
    (∀ (context : Context Term) (first second : String),
      (∀ reached, Context.Reaches directory context (Text.names first) reached →
        context.path directory (first ++ "." ++ second) = reached.path directory second) ∧
      (∀ name owner, directory.FirstUndeclared context.scope (Text.names first) name owner →
        context.path directory (first ++ "." ++ second) =
          .quiet (.error (.associationNotFound owner.model name))) ∧
      ((∃ reached, Context.Reaches directory context (Text.names first) reached) ∨
        ∃ name owner, directory.FirstUndeclared context.scope (Text.names first) name owner)) ∧
    (∀ (plan : Plan) (names : List String), names ≠ [] →
      (∀ chain, Context.Reaches directory (.table plan.root) names (.chain chain) →
        Planning.joinPath directory names plan = Planning.joinChain chain plan) ∧
      (∀ name owner, directory.FirstUndeclared plan.root.scope names name owner →
        Planning.joinPath directory names plan =
          Planning.fail (.associationNotFound owner.model name) plan) ∧
      ((∃ chain, Context.Reaches directory (.table plan.root) names (.chain chain)) ∨
        ∃ name owner, directory.FirstUndeclared plan.root.scope names name owner)) ∧
    ∀ (root : Table Term) (operations : List Operation) (names : List String),
      names ≠ [] → (∀ name ∈ names, '.' ∉ name.toList) →
      ∀ relation after events,
        Planning.joinPath directory names (of root operations).plan =
          ⟨.ok relation, after, events⟩ →
        ∀ context column,
          (Context.path directory (.table root)
            (".".intercalate names ++ "." ++ column)).value = .ok (.column ⟨context, column⟩) →
          ∃ told, Planning.lower (.column ⟨context, column⟩) after =
            ⟨.ok (.qualified relation.qualifier column), after, told⟩ := by
  refine ⟨?_, ?_, ?_⟩
  · intro context first second
    rw [Context.path_append]
    refine ⟨?_, ?_, Context.reaches_or_firstUndeclared directory context _⟩
    · intro reached reaches
      rw [Context.followAll_eq_ok_iff.2 reaches]
    · intro name owner undeclared
      rw [Context.followAll_of_firstUndeclared undeclared]
  · intro plan names nonempty
    refine ⟨fun chain => Planning.joinPath_of_reaches,
      fun name owner => Planning.joinPath_of_firstUndeclared, ?_⟩
    obtain ⟨reached, reaches⟩ | undeclared :=
      Context.reaches_or_firstUndeclared directory (.table plan.root) names
    · obtain ⟨chain, rfl⟩ := reaches.exists_chain nonempty
      exact .inl ⟨chain, reaches⟩
    · exact .inr undeclared
  · intro root operations names nonempty noDots relation after events joined context column found
    obtain ⟨chain, reaches, joinedChain⟩ := Planning.reaches_of_joinPath nonempty joined
    rw [root_of] at reaches
    rw [Context.path_append, Text.names_intercalate nonempty noDots,
      Context.followAll_eq_ok_iff.2 reaches] at found
    obtain rfl := Context.eq_of_path_eq_column found
    have consistent := (recorded root operations).consistent
    exact Planning.lower_column_of_joinChain consistent joinedChain column

end Run

namespace Staff

/-- The models of employees, with a column that has the name of an
association. -/
def payroll : Directory :=
  Catalog.directory
    { document :=
        { models :=
            [ { name := ⟨"Employee"⟩
                table := "employees"
                columns := ["id", "manager"]
                associations := [.belongsTo "manager" ⟨"Employee"⟩] } ] } }

/-- The same name is the association within a path and the column at its end.
Nothing is declared under the name `boss`. -/
theorem director_reached :
    (Context.path payroll (.table employees) ("manager.manager" ++ "." ++ "manager") =
        Context.path payroll (.chain director) "manager" ∧
      Context.path payroll (.table employees) ("manager.boss" ++ "." ++ "manager") =
        .quiet (.error (.associationNotFound "Employee" "boss"))) ∧
    (Planning.joinPath payroll ["manager", "manager"] (.ofRoot employees) =
        Planning.joinChain director (.ofRoot employees) ∧
      Planning.joinPath payroll ["manager", "boss"] (.ofRoot employees) =
        Planning.fail (.associationNotFound "Employee" "boss") (.ofRoot employees)) ∧
    ∃ relation after events,
      Planning.joinPath payroll ["manager", "manager"] (Run.of employees []).plan =
        ⟨.ok relation, after, events⟩ ∧
      (Context.path payroll (.table employees)
          (".".intercalate ["manager", "manager"] ++ "." ++ "manager")).value =
        .ok (.column ⟨.chain director, "manager"⟩) ∧
      ∃ told, Planning.lower (.column ⟨.chain director, "manager"⟩) after =
        ⟨.ok (.qualified relation.qualifier "manager"), after, told⟩ := by
  obtain ⟨dotted, joined, lowered⟩ := Run.paths_agree payroll
  have reaches : Context.Reaches payroll (.table employees) ["manager", "manager"]
      (.chain director) := .along rfl (.along rfl (.here _))
  have undeclared : payroll.FirstUndeclared employees.scope ["manager", "boss"] "boss"
      employees.scope := ⟨["manager"], [], rfl, rfl, rfl⟩
  refine ⟨⟨?_, ?_⟩, ⟨?_, ?_⟩, ?_⟩
  · exact (dotted (.table employees) "manager.manager" "manager").1 _ reaches
  · exact (dotted (.table employees) "manager.boss" "manager").2.1 _ _ undeclared
  · exact (joined (.ofRoot employees) ["manager", "manager"] (by simp)).1 _ reaches
  · exact (joined (.ofRoot employees) ["manager", "boss"] (by simp)).2.1 _ _ undeclared
  · have noDots : ∀ name ∈ ["manager", "manager"], '.' ∉ name.toList := by decide
    exact ⟨_, _, _, rfl, rfl, lowered employees [] _ (by simp) noDots _ _ _ rfl _ _ rfl⟩

end Staff

end Joinery
