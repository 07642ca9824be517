import NodeGroups.Proofs.Caches

/-!
# Changes made by hand

A cluster whose caches are filled by hand changes by what is applied to them and what is deleted,
one change of one cache at a time. An object that has no key is refused and changes nothing. So a
cluster stays one that was filled from nothing, by hand, after any number of changes.
-/
namespace NodeGroups

/-- An object is applied, or what is under a namespace and a name is deleted. -/
inductive Change (α : Type) where
  | apply (object : α)
  | delete (ns : Option String) (name : String)
deriving DecidableEq, Repr

namespace Cache

variable {α : Type} [Resource α]

/-- The cache after a change; a refused object leaves it as it was. -/
def changed (c : Cache α) : Change α → Cache α
  | .apply a =>
    match c.apply a with
    | .ok d => d
    | .error _ => c
  | .delete ns name => c.delete ns name

@[simp]
theorem keying_changed (c : Cache α) (change : Change α) :
    (c.changed change).keying = c.keying := by
  cases change with
  | apply a =>
    rw [changed]
    split
    · next d applied =>
      obtain ⟨_, -, rfl⟩ := apply_eq_ok_iff.mp applied
      rfl
    · rfl
  | delete ns name => rfl

theorem Reached.changed {c : Cache α} (h : c.Reached) (change : Change α) :
    (c.changed change).Reached := by
  cases change with
  | apply a =>
    rw [Cache.changed]
    split
    · next d applied => exact h.apply applied
    · exact h
  | delete ns name => exact h.delete ns name

end Cache

/-- A change of one of the four caches. -/
inductive ClusterChange where
  | nodes (change : Change Node)
  | machines (change : Change Machine)
  | machineSets (change : Change MachineSet)
  | machineDeployments (change : Change MachineDeployment)
deriving DecidableEq, Repr

namespace Cluster

def changed (c : Cluster) : ClusterChange → Cluster
  | .nodes change => { c with nodes := c.nodes.changed change }
  | .machines change => { c with machines := c.machines.changed change }
  | .machineSets change => { c with machineSets := c.machineSets.changed change }
  | .machineDeployments change =>
    { c with machineDeployments := c.machineDeployments.changed change }

/-- The cluster after changes, the first one made first. -/
def after (c : Cluster) (changes : List ClusterChange) : Cluster := changes.foldl changed c

theorem Reached.changed {c : Cluster} (h : c.Reached) (change : ClusterChange) :
    (c.changed change).Reached := by
  cases change with
  | nodes change => exact { h with nodes := h.nodes.changed change }
  | machines change => exact { h with machines := h.machines.changed change }
  | machineSets change => exact { h with machineSets := h.machineSets.changed change }
  | machineDeployments change =>
    exact { h with machineDeployments := h.machineDeployments.changed change }

theorem InMemory.changed {c : Cluster} (h : c.InMemory) (change : ClusterChange) :
    (c.changed change).InMemory := by
  cases change with
  | nodes change => exact { h with nodes := (c.nodes.keying_changed change).trans h.nodes }
  | machines change =>
    exact { h with machines := (c.machines.keying_changed change).trans h.machines }
  | machineSets change =>
    exact { h with machineSets := (c.machineSets.keying_changed change).trans h.machineSets }
  | machineDeployments change =>
    have kept := c.machineDeployments.keying_changed change
    exact { h with machineDeployments := kept.trans h.machineDeployments }

/-- What one change keeps, any number of them keeps. -/
theorem after_invariant {P : Cluster → Prop}
    (step : ∀ {c : Cluster}, P c → ∀ change, P (c.changed change)) {c : Cluster} (h : P c)
    (changes : List ClusterChange) : P (c.after changes) := by
  induction changes generalizing c with
  | nil => exact h
  | cons change rest ih => exact ih (step h change)

theorem Reached.after {c : Cluster} (h : c.Reached) (changes : List ClusterChange) :
    (c.after changes).Reached := after_invariant Reached.changed h changes

theorem InMemory.after {c : Cluster} (h : c.InMemory) (changes : List ClusterChange) :
    (c.after changes).InMemory := after_invariant InMemory.changed h changes

end Cluster
end NodeGroups
