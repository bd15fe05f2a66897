import Joinery.Proofs.Plan.FreeAlias
import Joinery.Proofs.Plan.Run

/-!
Contract: the search for an automatic alias, tried name by name.

The search starts at the stem and goes on for as long as the name is taken,
with the next number after the stem. Nothing in it bounds how long it goes on.
Only so many names are taken, though, and no two names of the search are equal,
so it stops after at most one name more than are taken, at the first name that
is free.

Owns: the search without a bound, and that it stops at the alias of the hop.

Does not own: the choice among candidates, and when a hop needs an alias.
-/

namespace Joinery.Plan

open Query (Hop Term)

/-! ## The search -/

/-- Where the search stands: the name to try, and the number to try after
it. -/
structure Attempt where
  name : String
  number : Nat

namespace Attempt

/-- The search tries the stem first. -/
def first (stem : String) : Attempt :=
  ⟨stem, 2⟩

def next (stem : String) (attempt : Attempt) : Attempt :=
  ⟨stem ++ "_" ++ toString attempt.number, attempt.number + 1⟩

end Attempt

/-- From an attempt on, the search tries a number of names, the last of which
is not taken. -/
inductive Search (taken : String → Prop) (stem : String) : Attempt → Nat → String → Prop where
  | found {attempt : Attempt} (isFree : ¬ taken attempt.name) :
      Search taken stem attempt 1 attempt.name
  | again {attempt : Attempt} {tests : Nat} {name : String} (isTaken : taken attempt.name)
      (later : Search taken stem (attempt.next stem) tests name) :
      Search taken stem attempt (tests + 1) name

namespace Search

variable {taken : String → Prop} {stem name name' : String} {attempt : Attempt}
  {tests tests' : Nat}

/-- The search has one outcome at most. -/
theorem unique (search : Search taken stem attempt tests name)
    (other : Search taken stem attempt tests' name') : tests = tests' ∧ name = name' := by
  induction search generalizing tests' with
  | found isFree =>
      cases other with
      | found => exact ⟨rfl, rfl⟩
      | again isTaken => exact absurd isTaken isFree
  | again isTaken later inductionHypothesis =>
      cases other with
      | found isFree => exact absurd isTaken isFree
      | again _ later' =>
          obtain ⟨sameTests, sameName⟩ := inductionHypothesis later'
          exact ⟨congrArg (· + 1) sameTests, sameName⟩

/-- Where the search stands after a number of names. -/
def attemptAt (stem : String) (n : Nat) : Attempt :=
  ⟨candidate stem n, n + 2⟩

theorem next_attemptAt (n : Nat) : (attemptAt stem n).next stem = attemptAt stem (n + 1) := rfl

/-- Past candidates that are taken the search goes on to the first free one. -/
theorem of_candidates {origin count : Nat} (isFree : ¬ taken (candidate stem (origin + count)))
    (before : ∀ m < count, taken (candidate stem (origin + m))) :
    Search taken stem (attemptAt stem origin) (count + 1) (candidate stem (origin + count)) := by
  -- The search goes forward, so each step starts anew from the next candidate.
  induction count generalizing origin with
  | zero => exact .found isFree
  | succ count inductionHypothesis =>
      have shift (m : Nat) : origin + (m + 1) = origin + 1 + m := by omega
      have isTaken : taken (attemptAt stem origin).name := before 0 (Nat.succ_pos count)
      refine .again isTaken ?_
      rw [next_attemptAt, shift count]
      rw [shift count] at isFree
      refine inductionHypothesis isFree fun m earlier => ?_
      rw [← shift m]
      exact before (m + 1) (Nat.succ_lt_succ earlier)

/-- The search stops at the first candidate that is free, and nowhere else. -/
theorem iff_of_candidates {count : Nat} (isFree : ¬ taken (candidate stem count))
    (before : ∀ m < count, taken (candidate stem m)) :
    Search taken stem (.first stem) tests name ↔
      tests = count + 1 ∧ name = candidate stem count := by
  have stops : Search taken stem (.first stem) (count + 1) (candidate stem count) := by
    have search := @of_candidates taken stem 0 count
    rw [Nat.zero_add] at search
    exact search isFree fun m earlier => by
      rw [Nat.zero_add]
      exact before m earlier
  constructor
  · intro search
    exact search.unique stops
  · rintro ⟨rfl, rfl⟩
    exact stops

end Search

/-! ## Names that are taken -/

/-- The name is the qualifier of the base, of an entry, or of an entry that is
staged. -/
def Walk.Takes (plan : Plan) (walk : Walk) (name : String) : Prop :=
  plan.base.qualifier = name ∨
    ∃ entry ∈ plan.entries ++ walk.staged.map Prod.snd, entry.relation.qualifier = name

instance (plan : Plan) (walk : Walk) : DecidablePred (walk.Takes plan) :=
  fun _ => inferInstanceAs (Decidable (_ ∨ _))

theorem Walk.mem_taken_iff {plan : Plan} {walk : Walk} {name : String} :
    name ∈ walk.taken plan ↔ walk.Takes plan name := by
  simp only [taken, qualifiers, Takes, List.mem_append, List.mem_cons, List.mem_map]
  grind

theorem Walk.length_taken (plan : Plan) (walk : Walk) :
    (walk.taken plan).length = plan.entries.length + walk.staged.length + 1 := by
  simp only [taken, qualifiers, List.length_append, List.length_cons, List.length_map]
  omega

/-! ## The alias of a hop -/

/-- A hop without an alias of its own, to a table whose name is taken, is given
an alias by the search. The search stops, after no more than two names beyond
the entries and the staged entries, at the first name in the order of numbers
that is not taken. The stem has the name of the owner's table, under whatever
alias the owner is joined. -/
theorem relationFor_eq_search (plan : Plan) (walk : Walk) (hop : Hop Term)
    (noAlias : hop.table.relation.aliasName = none)
    (isTaken : walk.Takes plan hop.table.relation.table.name) :
    let stem := hop.name ++ "_" ++ walk.owner.table.name
    ∃ count, count + 1 ≤ plan.entries.length + walk.staged.length + 2 ∧
      (∀ tests name, Search (walk.Takes plan) stem (.first stem) tests name ↔
        tests = count + 1 ∧ name = candidate stem count) ∧
      ¬ walk.Takes plan (candidate stem count) ∧
      (∀ earlier < count, walk.Takes plan (candidate stem earlier)) ∧
      relationFor (walk.taken plan) hop walk.owner =
        (⟨hop.table.relation.table, some (candidate stem count)⟩,
          [.repeatedTableAliased hop.table.relation.table.name (candidate stem count)]) := by
  intro stem
  obtain ⟨count, bound, choice, isFree, before⟩ := exists_freeAlias_eq (walk.taken plan) stem
  rw [Walk.length_taken] at bound
  simp only [Walk.mem_taken_iff] at isFree before
  have qualified : hop.table.relation.qualifier = hop.table.relation.table.name := by
    rw [Sql.Relation.qualifier, noAlias, Option.getD_none]
  refine ⟨count, by omega, fun tests name => Search.iff_of_candidates isFree before, isFree,
    before, ?_⟩
  rw [← choice]
  obtain ⟨free, -⟩ | ⟨-, hasAlias, -⟩ | ⟨-, -, given⟩ :=
    relationFor_cases (walk.taken plan) hop walk.owner
  · rw [qualified, Walk.mem_taken_iff] at free
    exact absurd isTaken free
  · simp [noAlias] at hasAlias
  · exact given

end Joinery.Plan

namespace Joinery.Staff

open Plan (Search Walk)

/-- The manager of an employee, under an alias. -/
def managerAs (aliasName : String) : Query.Chain Query.Term :=
  manager.mapTarget (·.withAlias aliasName)

/-- A plan with an alias as the search would give it. -/
def lookalike : Plan :=
  (Run.of employees [.joinChain (managerAs "manager_employees")]).plan

/-- A walk that has staged one more such alias. -/
def lookalikeWalk : Walk :=
  lookalike.walk [(managerAs "manager_employees_2").last]

/-- The owner goes by its alias, the stem by its table. -/
theorem third_name_is_free :
    manager.last.table.relation.aliasName = none ∧
    lookalikeWalk.Takes lookalike "employees" ∧
    Search (lookalikeWalk.Takes lookalike) "manager_employees" (.first "manager_employees") 3
      "manager_employees_3" ∧
    Plan.relationFor (lookalikeWalk.taken lookalike) manager.last lookalikeWalk.owner =
      (⟨{ name := "employees" }, some "manager_employees_3"⟩,
        [.repeatedTableAliased "employees" "manager_employees_3"]) := by
  have noAlias : manager.last.table.relation.aliasName = none := rfl
  have isTaken : lookalikeWalk.Takes lookalike "employees" := by decide
  obtain ⟨count, -, stops, -, -, given⟩ :=
    Plan.relationFor_eq_search lookalike lookalikeWalk manager.last noAlias isTaken
  have search : Search (lookalikeWalk.Takes lookalike) "manager_employees"
      (.first "manager_employees") 3 "manager_employees_3" :=
    .again (by decide) (.again (by decide) (.found (by decide)))
  obtain ⟨-, isThird⟩ := (stops 3 "manager_employees_3").1 search
  rw [← isThird] at given
  exact ⟨noAlias, isTaken, search, given⟩

end Joinery.Staff
