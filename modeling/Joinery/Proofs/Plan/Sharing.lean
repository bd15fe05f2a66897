import Joinery.Proofs.Plan.FirstTraversal

/-!
Contract: which joins share a relation.

While the qualifiers of a plan differ from one another, two joins of a run
were given the same qualifier exactly if their sources have the same key:
the same table, the same alias chosen for it, and the same path from the
root, aliases included. No join was given the qualifier of the base.

Owns: the meaning of given qualifiers.

Does not own: when the qualifiers of a plan differ.
-/

namespace Joinery.Run

open Query (Table Term)

theorem inj_of_nodup_qualifiers {plan : Plan} (distinct : plan.qualifiers.Nodup)
    {entry other : Plan.Entry} (isEntry : entry ∈ plan.entries)
    (otherIsEntry : other ∈ plan.entries)
    (sameQualifier : entry.relation.qualifier = other.relation.qualifier) : entry = other :=
  List.inj_on_of_nodup_map (List.nodup_cons.1 distinct).2 isEntry otherIsEntry sameQualifier

theorem qualifier_ne_base {plan : Plan} (distinct : plan.qualifiers.Nodup) {entry : Plan.Entry}
    (isEntry : entry ∈ plan.entries) : entry.relation.qualifier ≠ plan.base.qualifier := by
  intro sameQualifier
  apply (List.nodup_cons.1 distinct).1
  rw [← sameQualifier]
  exact List.mem_map_of_mem isEntry

/-- The join of the manager's chain, whose table is repeated. -/
def managerJoined : Joined :=
  ⟨.chain Staff.manager, ⟨{ name := "employees" }, some "manager_employees"⟩⟩

/-- The join of the same chain under an alias. -/
def bossJoined : Joined :=
  ⟨.chain Staff.boss, ⟨{ name := "employees" }, some "boss"⟩⟩

/-- Two joins of a run share a qualifier exactly if their sources have the
same key, provided that the qualifiers of the plan differ in the end. -/
theorem qualifier_eq_iff_key_eq (root : Table Term) (operations : List Operation)
    (distinct : (of root operations).plan.qualifiers.Nodup) :
    ∀ first ∈ (of root operations).joined, ∀ second ∈ (of root operations).joined,
      (first.relation.qualifier = second.relation.qualifier ↔
        Plan.keyOf first.source = Plan.keyOf second.source) ∧
      first.relation.qualifier ≠ root.relation.qualifier := by
  intro first isFirst second isSecond
  have recorded := recorded root operations
  obtain ⟨entry, isEntry, entryKey, entryRelation⟩ := recorded.given first isFirst
  obtain ⟨other, otherIsEntry, otherKey, otherRelation⟩ := recorded.given second isSecond
  rw [← entryKey, ← entryRelation, ← otherKey, ← otherRelation]
  refine ⟨⟨?_, ?_⟩, ?_⟩
  · intro sameQualifier
    rw [inj_of_nodup_qualifiers distinct isEntry otherIsEntry sameQualifier]
  · intro sameKey
    rw [recorded.consistent.eq_of_key_eq isEntry otherIsEntry sameKey]
  · rw [← base_of root operations]
    exact qualifier_ne_base distinct isEntry

/-- The manager of an employee and the boss are joined twice, each time under
the qualifiers of the first time. -/
theorem qualifiers_of_staff :
    (of Staff.employees [.joinChain Staff.manager, .lower Staff.sameName]).plan.qualifiers.Nodup ∧
    managerJoined ∈
      (of Staff.employees [.joinChain Staff.manager, .lower Staff.sameName]).joined ∧
    bossJoined ∈
      (of Staff.employees [.joinChain Staff.manager, .lower Staff.sameName]).joined ∧
    (managerJoined.relation.qualifier = bossJoined.relation.qualifier ↔
      Plan.keyOf managerJoined.source = Plan.keyOf bossJoined.source) ∧
    managerJoined.relation.qualifier ≠ Staff.employees.relation.qualifier := by
  have distinct :
      (of Staff.employees
        [.joinChain Staff.manager, .lower Staff.sameName]).plan.qualifiers.Nodup := by
    decide
  have joined :
      (of Staff.employees [.joinChain Staff.manager, .lower Staff.sameName]).joined =
        [managerJoined, managerJoined, bossJoined] := rfl
  have isFirst :
      managerJoined ∈
        (of Staff.employees [.joinChain Staff.manager, .lower Staff.sameName]).joined := by
    rw [joined]
    exact List.mem_cons_self
  have isSecond :
      bossJoined ∈
        (of Staff.employees [.joinChain Staff.manager, .lower Staff.sameName]).joined := by
    simp [joined]
  exact ⟨distinct, isFirst, isSecond,
    qualifier_eq_iff_key_eq _ _ distinct managerJoined isFirst bossJoined isSecond⟩

end Joinery.Run
