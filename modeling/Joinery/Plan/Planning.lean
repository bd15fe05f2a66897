import Joinery.Plan.Basic

/-!
Contract: operations on plans.

An operation takes a plan and gives an outcome: a result or an error, the
plan after it, and the events of the operation. An operation that is made of
others stops at the first error and keeps the plan as it is then.
-/

namespace Joinery

/-- What an operation on a plan gives. -/
structure Outcome (α : Type) where
  result : Except Query.Error α
  plan : Plan
  events : List Query.Event

/-- An operation on plans. -/
def Planning (α : Type) := Plan → Outcome α

namespace Planning

variable {α β : Type}

/-- Gives a result and leaves the plan as it is. -/
def give (value : α) : Planning α :=
  fun plan => ⟨.ok value, plan, []⟩

/-- Gives an error and leaves the plan as it is. -/
def fail (error : Query.Error) : Planning α :=
  fun plan => ⟨.error error, plan, []⟩

/-- Goes on with the result of an operation, unless it failed. -/
def andThen (operation : Planning α) (next : α → Planning β) : Planning β := fun plan =>
  let first := operation plan
  match first.result with
  | .ok value =>
      let second := next value first.plan
      ⟨second.result, second.plan, first.events ++ second.events⟩
  | .error error => ⟨.error error, first.plan, first.events⟩

instance : Monad Planning where
  pure := give
  bind := andThen

instance : LawfulMonad Planning :=
  LawfulMonad.mk' Planning
    (by
      intro α operation
      funext plan
      rcases run : operation plan with ⟨result, after, events⟩
      cases result <;> simp [Functor.map, andThen, give, run])
    (by
      intro α β value next
      funext plan
      simp [bind, pure, andThen, give])
    (by
      intro α β γ operation next after
      funext plan
      rcases run : operation plan with ⟨result, middle, events⟩
      cases result with
      | error => simp [bind, andThen, run]
      | ok value =>
          rcases ran : next value middle with ⟨result', last, events'⟩
          cases result' <;> simp [bind, andThen, run, ran])

/-! ## Laws of sequences -/

theorem give_eq_pure (value : α) : give value = pure value := rfl

section Sequence

variable {operation : Planning α} {next : α → Planning β} {plan after : Plan}
  {events : List Query.Event}

theorem bind_of_ok {value : α} (ran : operation plan = ⟨.ok value, after, events⟩) :
    (operation >>= next) plan =
      ⟨(next value after).result, (next value after).plan,
        events ++ (next value after).events⟩ := by
  simp [bind, andThen, ran]

theorem bind_of_error {error : Query.Error}
    (ran : operation plan = ⟨.error error, after, events⟩) :
    (operation >>= next) plan = ⟨.error error, after, events⟩ := by
  simp [bind, andThen, ran]

theorem eq_of_result {result : Except Query.Error α} (given : (operation plan).result = result) :
    ∃ after events, operation plan = ⟨result, after, events⟩ := by
  refine ⟨(operation plan).plan, (operation plan).events, ?_⟩
  rw [← given]

/-- What is computed from a result alone leaves the plan as it is. -/
theorem plan_bind_pure (operation : Planning α) (change : α → β) (plan : Plan) :
    ((operation >>= fun value => pure (change value)) plan).plan = (operation plan).plan := by
  rcases ran : operation plan with ⟨result, after, events⟩
  cases result with
  | ok value =>
      rw [bind_of_ok ran]
      rfl
  | error error => rw [bind_of_error ran]

/-- A sequence succeeds if both of its parts do. -/
theorem bind_eq_ok {result : β} (ran : (operation >>= next) plan = ⟨.ok result, after, events⟩) :
    ∃ value middle earlier later, operation plan = ⟨.ok value, middle, earlier⟩ ∧
      next value middle = ⟨.ok result, after, later⟩ ∧ events = earlier ++ later := by
  rcases first : operation plan with ⟨firstResult, middle, earlier⟩
  cases firstResult with
  | ok value =>
      rw [bind_of_ok first] at ran
      cases second : next value middle
      rw [second] at ran
      cases ran
      exact ⟨value, middle, earlier, _, rfl, second, rfl⟩
  | error error =>
      rw [bind_of_error first] at ran
      cases ran

/-- Only the results that an operation can give matter to what follows it. -/
theorem bind_congr_of_ok {other : α → Planning β}
    (agree : ∀ plan value, (operation plan).result = .ok value → next value = other value) :
    operation >>= next = operation >>= other := by
  funext plan
  rcases ran : operation plan with ⟨result, after, events⟩
  cases result with
  | ok value => rw [bind_of_ok ran, bind_of_ok ran, agree plan value (by rw [ran])]
  | error error => rw [bind_of_error ran, bind_of_error ran]

end Sequence

end Planning

end Joinery
