import NodeGroups.Proofs.Shrinking

/-!
# Which resizes reach the scaler

A resize is decided on the words as integers: none of the sums wraps round, and none of the
bounds is taken to be in order. What is accepted is one request, for the group and for the size
in question (`Resize.For`), and carrying it out is one call of the scaler, whose outcome is
passed on. What is refused calls nothing, and the error names the group
(`NodeGroup.CallsWhen`).
-/
namespace NodeGroups

theorem Bounds.contains_iff {b : Bounds} {n : Int32} :
    b.contains n = true ↔ b.min.toInt ≤ n.toInt ∧ n.toInt ≤ b.max.toInt := by
  rw [contains, Bool.and_eq_true, decide_eq_true_iff, decide_eq_true_iff,
    Int32.le_iff_toInt_le, Int32.le_iff_toInt_le]

/-- The sum of two words is the word that is equal to it, if there is one. -/
theorem shifted?_eq_some_iff {size delta target : Int32} :
    shifted? size delta = some target ↔ target.toInt = size.toInt + delta.toInt := by
  simp only [shifted?]
  constructor
  · intro h
    split at h
    · next fits =>
      cases h
      obtain ⟨low, high⟩ := fits
      have least : Int32.minValue.toInt = -2147483648 := rfl
      have largest : Int32.maxValue.toInt = 2147483647 := rfl
      exact Int32.toInt_ofInt_of_le (by omega) (by omega)
    · cases h
  · intro h
    have low := target.minValue_le_toInt
    have high := target.toInt_le
    rw [h] at low high
    rw [if_pos ⟨low, high⟩, ← h, Int32.ofInt_toInt]

/-- The request is for the group and has it declare the size. -/
structure Resize.For (r : Resize) (g : NodeGroup) (size : Int) : Prop where
  group : r.group = g.id
  replicas : r.replicas.toInt = size

/-- A scaler that also lists its calls. -/
def Scaler.noting {σ : Type} (scaler : Scaler σ) : Scaler (σ × List Resize) := fun r state =>
  let done := scaler r state.1
  (done.1, done.2, state.2 ++ [r])

namespace NodeGroup

/-- The size is within the bounds of the group. -/
def Admits (g : NodeGroup) (size : Int) : Prop :=
  g.minSize.toInt ≤ size ∧ size ≤ g.maxSize.toInt

/-- Only a size that is a word is within bounds. -/
theorem Admits.exists_word {g : NodeGroup} {size : Int} (h : g.Admits size) :
    ∃ n : Int32, n.toInt = size := by
  obtain ⟨low, high⟩ := h
  have least := g.minSize.le_toInt
  have largest := g.maxSize.toInt_lt
  exact ⟨Int32.ofInt size, Int32.toInt_ofInt_of_le (by omega) (by omega)⟩

end NodeGroup

/-- What is asked for a size within the bounds is a replica count within the bounds. -/
theorem Resize.For.within {r : Resize} {g : NodeGroup} {size : Int} (h : r.For g size)
    (admitted : g.Admits size) : r.group = g.id ∧ g.bounds.contains r.replicas = true := by
  rw [← h.replicas] at admitted
  exact ⟨h.group, Bounds.contains_iff.mpr admitted⟩

namespace NodeGroup

section
variable {g : NodeGroup} {c : Cluster} {n delta : Int32} {r : Resize}

theorem setSize_eq_ok_iff : g.setSize n = .ok r ↔ g.Admits n.toInt ∧ r.For g n.toInt := by
  rw [setSize_eq_ok_iff_contains, Bounds.contains_iff]
  refine and_congr_right fun _ => ?_
  constructor
  · rintro rfl
    exact ⟨rfl, rfl⟩
  · rintro ⟨same, wanted⟩
    rw [← same, ← Int32.toInt_inj.mp wanted]

theorem increaseSize_eq_ok_iff : g.increaseSize delta = .ok r ↔
    (0 < delta.toInt ∧ g.Admits (g.root.replicas.toInt + delta.toInt)) ∧
      r.For g (g.root.replicas.toInt + delta.toInt) := by
  rw [increaseSize, size_eq]
  by_cases nonpos : delta ≤ 0
  · have down : ¬ 0 < delta.toInt := Int.not_lt.mpr (Int32.le_iff_toInt_le.mp nonpos)
    simp [if_pos nonpos, down]
  · have up : 0 < delta.toInt := Int32.lt_iff_toInt_lt.mp (Int32.not_le.mp nonpos)
    rw [if_neg nonpos]
    cases shift : shifted? g.root.replicas delta with
    | none =>
      simp only [reduceCtorEq, false_iff]
      rintro ⟨-, -, wanted⟩
      cases shift.symm.trans (shifted?_eq_some_iff.mpr wanted)
    | some target =>
      rw [← shifted?_eq_some_iff.mp shift]
      simp only [up, true_and]
      split
      · next above =>
        simp only [reduceCtorEq, false_iff]
        rintro ⟨⟨-, below⟩, -⟩
        have beyond := Int32.lt_iff_toInt_lt.mp above
        omega
      · exact setSize_eq_ok_iff

theorem decreaseTargetSize_eq_ok_iff_admits : g.decreaseTargetSize c delta = .ok r ↔
    (delta.toInt < 0 ∧ (g.members c).length ≤ g.root.replicas.toInt + delta.toInt ∧
      g.Admits (g.root.replicas.toInt + delta.toInt)) ∧
        r.For g (g.root.replicas.toInt + delta.toInt) := by
  rw [decreaseTargetSize_eq_ok_iff, shifted?_eq_some_iff, Bounds.contains_iff]
  constructor
  · rintro ⟨down, wanted, kept, within, same⟩
    rw [← wanted]
    exact ⟨⟨Int32.lt_iff_toInt_lt.mp down, kept, within⟩, same, rfl⟩
  · rintro ⟨⟨down, kept, admitted⟩, same, wanted⟩
    rw [← wanted] at kept admitted
    exact ⟨Int32.lt_iff_toInt_lt.mpr down, wanted, kept, admitted, same⟩

end

/-- What the scaler is asked for when a decision about the group is carried out. -/
def calls {σ : Type} (g : NodeGroup) (scaler : Scaler σ) (decision : Except ResizeFault Resize)
    (state : σ) : List Resize :=
  (g.perform scaler.noting decision (state, [])).2.2

/-- Under the condition, and under no other, a decision is one call for the group and the size.
Whatever the scaler makes of it is the outcome; without a call, nothing happens and the error is
about the group. -/
structure CallsWhen (g : NodeGroup) (decision : Except ResizeFault Resize) (condition : Prop)
    (size : Int) : Prop where
  called : condition → ∃ r : Resize, r.For g size ∧
    ∀ {σ : Type} (scaler : Scaler σ) (state : σ),
      g.calls scaler decision state = [r] ∧ g.perform scaler decision state = scaler r state
  refused : ¬ condition → ∃ message,
    ∀ {σ : Type} (scaler : Scaler σ) (state : σ), g.calls scaler decision state = [] ∧
      g.perform scaler decision state = (.error (.scale g.id.text message), state)

/-- A decision that accepts one request under a condition calls for that request. -/
theorem CallsWhen.of_accepts {g : NodeGroup} {decision : Except ResizeFault Resize}
    {condition : Prop} {size : Int} (word : condition → ∃ n : Int32, n.toInt = size)
    (accepts : ∀ r, decision = .ok r ↔ condition ∧ r.For g size) :
    g.CallsWhen decision condition size where
  called holds := by
    obtain ⟨n, wanted⟩ := word holds
    have asked : Resize.For ⟨g.id, n⟩ g size := ⟨rfl, wanted⟩
    have accepted : decision = .ok ⟨g.id, n⟩ := (accepts _).mpr ⟨holds, asked⟩
    subst accepted
    exact ⟨⟨g.id, n⟩, asked, fun scaler state => ⟨rfl, rfl⟩⟩
  refused fails := by
    cases decision with
    | ok r => exact absurd ((accepts r).mp rfl).1 fails
    | error fault => exact ⟨fault.message, fun scaler state => ⟨rfl, rfl⟩⟩

/-- Each way to resize a group, whatever its bounds and its size are, asks for a size exactly
when that is a word within the bounds, on the side that the way goes to and no less than the
members. -/
theorem resizes_reach_scaler (g : NodeGroup) (c : Cluster) (n delta : Int32) :
    g.CallsWhen (g.setSize n) (g.minSize.toInt ≤ n.toInt ∧ n.toInt ≤ g.maxSize.toInt) n.toInt ∧
    g.CallsWhen (g.increaseSize delta)
      (0 < delta.toInt ∧ g.root.replicas.toInt + delta.toInt ≤ Int32.maxValue.toInt ∧
        g.minSize.toInt ≤ g.root.replicas.toInt + delta.toInt ∧
        g.root.replicas.toInt + delta.toInt ≤ g.maxSize.toInt)
      (g.root.replicas.toInt + delta.toInt) ∧
    g.CallsWhen (g.decreaseTargetSize c delta)
      (delta.toInt < 0 ∧ Int32.minValue.toInt ≤ g.root.replicas.toInt + delta.toInt ∧
        ((g.members c).length : Int) ≤ g.root.replicas.toInt + delta.toInt ∧
        g.minSize.toInt ≤ g.root.replicas.toInt + delta.toInt ∧
        g.root.replicas.toInt + delta.toInt ≤ g.maxSize.toInt)
      (g.root.replicas.toInt + delta.toInt) := by
  have least := g.minSize.minValue_le_toInt
  have largest := g.maxSize.toInt_le
  refine ⟨?_, ?_, ?_⟩
  · exact .of_accepts (fun _ => ⟨n, rfl⟩) fun r => setSize_eq_ok_iff
  · refine .of_accepts (fun ⟨_, _, within⟩ => Admits.exists_word within) fun r => ?_
    rw [increaseSize_eq_ok_iff]
    refine and_congr_left fun _ => ?_
    constructor
    · rintro ⟨up, low, high⟩
      exact ⟨up, by omega, low, high⟩
    · rintro ⟨up, -, within⟩
      exact ⟨up, within⟩
  · refine .of_accepts (fun ⟨_, _, _, within⟩ => Admits.exists_word within) fun r => ?_
    rw [decreaseTargetSize_eq_ok_iff_admits]
    refine and_congr_left fun _ => ?_
    constructor
    · rintro ⟨down, kept, low, high⟩
      exact ⟨down, by omega, kept, low, high⟩
    · rintro ⟨down, -, kept, within⟩
      exact ⟨down, kept, within⟩

end NodeGroup
end NodeGroups
