import Joinery.Plan.Alias
import Mathlib

/-!
Contract: an automatic alias is free.

No two candidates are equal, since their numbers are not. Among one candidate
more than names are taken there is one that is not taken, so the choice never
falls back on the stem. It is the first candidate that is free.

Owns: that candidates differ, and that the chosen one is the first free one.

Does not own: which names are taken, and the search name by name.
-/

namespace Joinery.Plan

/-! ## Candidates differ -/

/-- With a number after it the stem is longer. -/
theorem candidate_succ_ne (stem : String) (n : Nat) : candidate stem (n + 1) ≠ stem := by
  intro sameName
  have underscore : "_".length = 1 := rfl
  have sameLength := congrArg String.length sameName
  simp only [candidate, String.length_append, underscore] at sameLength
  omega

theorem candidate_inj (stem : String) {m n : Nat}
    (sameName : candidate stem m = candidate stem n) : m = n := by
  cases m with
  | zero =>
      cases n with
      | zero => rfl
      | succ n => exact absurd sameName.symm (candidate_succ_ne stem n)
  | succ m =>
      cases n with
      | zero => exact absurd sameName (candidate_succ_ne stem m)
      | succ n =>
          have sameNumber : m + 2 = n + 2 :=
            Nat.repr_inj.1 ((String.append_right_inj _).1 sameName)
          omega

theorem nodup_candidates (stem : String) (count : Nat) : (candidates stem count).Nodup :=
  List.Pairwise.map (candidate stem)
    (fun _ _ apart sameName => apart (candidate_inj stem sameName)) List.nodup_range

/-! ## The choice is free -/

/-- More candidates than taken names leave a free one. -/
theorem exists_candidate_not_mem (taken : List String) (stem : String) :
    ∃ name ∈ candidates stem (taken.length + 1), name ∉ taken := by
  by_contra noneFree
  have allTaken : candidates stem (taken.length + 1) ⊆ taken := by
    intro name isCandidate
    by_contra isFree
    exact noneFree ⟨name, isCandidate, isFree⟩
  have tooMany := (nodup_candidates stem (taken.length + 1)).length_le_of_subset allTaken
  simp only [candidates, List.length_map, List.length_range] at tooMany
  omega

/-- The choice is a candidate and every candidate before it is taken. -/
theorem exists_freeAlias_eq (taken : List String) (stem : String) :
    ∃ n ≤ taken.length, freeAlias taken stem = candidate stem n ∧
      candidate stem n ∉ taken ∧ ∀ m < n, candidate stem m ∈ taken := by
  obtain ⟨name, isCandidate, isFree⟩ := exists_candidate_not_mem taken stem
  unfold freeAlias
  cases chosen : (candidates stem (taken.length + 1)).find? (· ∉ taken) with
  | none => exact absurd (List.find?_eq_none.1 chosen name isCandidate) (by simpa using isFree)
  | some first =>
      obtain ⟨firstFree, n, bound, atIndex, before⟩ :=
        List.find?_eq_some_iff_getElem.1 chosen
      simp only [candidates, List.length_map, List.length_range, List.getElem_map,
        List.getElem_range, decide_not, Bool.not_eq_true', decide_eq_false_iff_not,
        Bool.not_not, decide_eq_true_eq] at bound atIndex before firstFree
      exact ⟨n, by omega, atIndex.symm, atIndex ▸ firstFree, before⟩

/-- The chosen alias is free. -/
theorem freeAlias_not_mem (taken : List String) (stem : String) :
    freeAlias taken stem ∉ taken := by
  obtain ⟨_, _, choice, isFree, _⟩ := exists_freeAlias_eq taken stem
  exact choice ▸ isFree

end Joinery.Plan
