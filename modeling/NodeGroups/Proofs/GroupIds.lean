import NodeGroups.GroupId

/-!
# The order of identifiers

Keys and identifiers are in a total order: namespaces first, then names, and all MachineSets
before all MachineDeployments.
-/
namespace NodeGroups

namespace ObjectKey

theorem le_iff {a b : ObjectKey} :
    a.le b = true ↔ a.ns < b.ns ∨ a.ns = b.ns ∧ a.name ≤ b.name := by
  simp [le]

theorem le_total (a b : ObjectKey) : a.le b = true ∨ b.le a = true := by
  rw [le_iff, le_iff]
  by_cases hab : a.ns < b.ns
  · exact Or.inl (Or.inl hab)
  by_cases hba : b.ns < a.ns
  · exact Or.inr (Or.inl hba)
  have same : a.ns = b.ns := String.le_antisymm (String.not_lt.mp hba) (String.not_lt.mp hab)
  rcases String.le_total a.name b.name with h | h
  · exact Or.inl (Or.inr ⟨same, h⟩)
  · exact Or.inr (Or.inr ⟨same.symm, h⟩)

theorem le_trans {a b c : ObjectKey} (hab : a.le b = true) (hbc : b.le c = true) :
    a.le c = true := by
  rw [le_iff] at *
  rcases hab with hab | ⟨hab, nab⟩
  · rcases hbc with hbc | ⟨hbc, -⟩
    · exact Or.inl (String.lt_trans hab hbc)
    · exact Or.inl (hbc ▸ hab)
  · rcases hbc with hbc | ⟨hbc, nbc⟩
    · exact Or.inl (hab ▸ hbc)
    · exact Or.inr ⟨hab.trans hbc, String.le_trans nab nbc⟩

theorem le_antisymm {a b : ObjectKey} (hab : a.le b = true) (hba : b.le a = true) : a = b := by
  obtain ⟨nsa, namea⟩ := a
  obtain ⟨nsb, nameb⟩ := b
  rw [le_iff] at *
  rcases hab with hab | ⟨rfl, nab⟩
  · rcases hba with hba | ⟨rfl, -⟩
    · exact absurd hba (String.lt_asymm hab)
    · exact absurd hab (String.lt_irrefl _)
  · rcases hba with hba | ⟨-, nba⟩
    · exact absurd hba (String.lt_irrefl _)
    · exact congrArg _ (String.le_antisymm nab nba)

end ObjectKey

namespace GroupId

theorem le_total (a b : GroupId) : a.le b = true ∨ b.le a = true := by
  rw [le, le]
  cases a.kind with
  | machineSet =>
    cases b.kind with
    | machineSet => exact ObjectKey.le_total _ _
    | machineDeployment => exact Or.inl rfl
  | machineDeployment =>
    cases b.kind with
    | machineSet => exact Or.inr rfl
    | machineDeployment => exact ObjectKey.le_total _ _

theorem le_trans {a b c : GroupId} (hab : a.le b = true) (hbc : b.le c = true) :
    a.le c = true := by
  rw [le] at *
  cases ha : a.kind <;> cases hb : b.kind <;> cases hc : c.kind <;>
    simp only [ha, hb, hc, reduceCtorEq] at hab hbc ⊢
  -- what is left are three identifiers of one kind
  · exact ObjectKey.le_trans hab hbc
  · exact ObjectKey.le_trans hab hbc

theorem le_antisymm {a b : GroupId} (hab : a.le b = true) (hba : b.le a = true) : a = b := by
  obtain ⟨kinda, nsa, namea⟩ := a
  obtain ⟨kindb, nsb, nameb⟩ := b
  have same (ka : ObjectKey.le ⟨nsa, namea⟩ ⟨nsb, nameb⟩ = true)
      (kb : ObjectKey.le ⟨nsb, nameb⟩ ⟨nsa, namea⟩ = true) : nsa = nsb ∧ namea = nameb := by
    simpa using ObjectKey.le_antisymm ka kb
  cases kinda <;> cases kindb <;> simp only [le, Bool.false_eq_true] at hab hba
  -- what is left are two identifiers of one kind
  · obtain ⟨rfl, rfl⟩ := same hab hba
    rfl
  · obtain ⟨rfl, rfl⟩ := same hab hba
    rfl

/-- The first identifier comes before the second one. -/
def Before (a b : GroupId) : Prop := a.le b = true ∧ a ≠ b

theorem Before.asymm {a b : GroupId} (hab : a.Before b) : ¬ b.Before a := fun hba =>
  hab.2 (le_antisymm hab.1 hba.1)

end GroupId
end NodeGroups
