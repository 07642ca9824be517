import NodeGroups.Proofs.Ancestry

/-!
# Groups partition the Machines

What a group finds below its root is what has the root above it: a Machine is in a group exactly
when the MachineSet that owns it is represented by the group's root. So the groups of one
listing share no Machine. Within a group all Machines are in one namespace, where no two have
the same name, and the order by name is strict.
-/
namespace NodeGroups

namespace Cluster

section
variable {c : Cluster}

/-- To lead to a root is to be owned by a MachineSet that the root represents. -/
theorem IsRoot.leadsTo_iff {r : Root} (root : c.IsRoot r) {m : Machine} :
    c.LeadsTo m r ↔ ∃ ms, c.machineOwner? m = .ok (some ms) ∧ c.representative ms = r := by
  simp only [LeadsTo, root.rootOf_eq_iff]

/-- Below one root a Machine is known by its name. -/
theorem LeadsTo.eq_of_name (reached : c.Reached) (placed : c.Placed) {a b : Machine}
    (ha : a ∈ c.machines.objects) (hb : b ∈ c.machines.objects) {r : Root}
    (upa : c.LeadsTo a r) (upb : c.LeadsTo b r)
    (same : a.metadata.displayName = b.metadata.displayName) : a = b := by
  obtain ⟨nsa, hnsa, segmenta⟩ := (placed.machines a ha).ns
  obtain ⟨nsb, hnsb, segmentb⟩ := (placed.machines b hb).ns
  have abovea := upa.ns_eq reached placed.direct.ownersStay hnsa segmenta.1
  have aboveb := upb.ns_eq reached placed.direct.ownersStay hnsb segmentb.1
  cases abovea.symm.trans aboveb
  exact reached.machines.keyed.eq_of_displayName ha hb (hnsa.trans hnsb.symm) same

end

end Cluster

namespace NodeGroup

section
variable {c : Cluster} (reached : c.Reached) (placed : c.Placed) {g : NodeGroup}
  (root : c.IsRoot g.root) (hid : g.root.id = .ok g.id)

include reached placed root hid in
/-- The Machines of a group go up by name without repeating one. -/
theorem machines_ascending : (g.machines c).Pairwise fun a b =>
    a.metadata.displayName < b.metadata.displayName := by
  have apart : (g.machines c).Pairwise fun a b =>
      a.metadata.displayName ≠ b.metadata.displayName := by
    refine (machines_nodup reached placed root hid).imp_of_mem fun ha hb ne same => ne ?_
    obtain ⟨cacheda, upa⟩ := (mem_machines_iff reached placed root hid).mp ha
    obtain ⟨cachedb, upb⟩ := (mem_machines_iff reached placed root hid).mp hb
    exact upa.eq_of_name reached placed cacheda cachedb upb same
  refine (g.machines_sorted c).imp₂ (fun a b le ne => ?_) apart
  exact String.not_le.mp fun ge => ne (String.le_antisymm le ge)

end

end NodeGroup

namespace Directory

/-- The directory answers with the group, in a listing or when it is looked up. -/
def Returns (d : Directory) (g : NodeGroup) : Prop :=
  (∃ gs, d.groups = .ok gs ∧ g ∈ gs) ∨ ∃ id, d.lookup id = .ok (.scalable g)

/-- A group that is looked up is the one of a cached root, whatever the settings. -/
theorem isRoot_of_lookup {d : Directory} {id : GroupId} {g : NodeGroup}
    (h : d.lookup id = .ok (.scalable g)) :
    d.cluster.IsRoot g.root ∧ g.root.group? = .ok (some g) := by
  have grouped {r : Root} (root : d.cluster.IsRoot r)
      (hr : lookupRoot r = .ok (.scalable g)) :
      d.cluster.IsRoot g.root ∧ g.root.group? = .ok (some g) := by
    have hg := lookupRoot_eq_scalable.mp hr
    rw [(Root.id_of_group? hg).1]
    exact ⟨root, hg⟩
  rw [lookup] at h
  split at h
  · split at h
    · split at h
      · cases h
      · next ms found =>
        split at h
        · cases h
        · cases h
        · next own above =>
          have cached := Cache.mem_of_get? found
          exact grouped (Cluster.isRoot_of_rootOf cached above) h
    · split at h
      · cases h
      · next md found =>
        have cached : d.cluster.IsRoot (.machineDeployment md) := Cache.mem_of_get? found
        exact grouped cached h
  · cases h

theorem Returns.isRoot {d : Directory} {g : NodeGroup} (h : d.Returns g) :
    d.cluster.IsRoot g.root ∧ g.root.id = .ok g.id := by
  rcases h with ⟨gs, went, hg⟩ | ⟨id, look⟩
  · exact ⟨((mem_groups_iff went).mp hg).1, id_of_mem_groups went hg⟩
  · obtain ⟨root, grouped⟩ := isRoot_of_lookup look
    exact ⟨root, (Root.id_of_group? grouped).2⟩

/-- The Machines of the groups are found from above as from below, each once, in the order of
their names, and no two groups of a listing share one. -/
theorem machines_partition (d : Directory) (reached : d.cluster.Reached)
    (placed : d.cluster.Placed) :
    (∀ g, d.Returns g →
      (∀ m ∈ d.cluster.machines.objects, m ∈ g.machines d.cluster ↔
        ∃ ms, d.cluster.machineOwner? m = .ok (some ms) ∧
          d.cluster.representative ms = g.root) ∧
      (∀ m ∈ g.machines d.cluster, m ∈ d.cluster.machines.objects ∧
        (g.machines d.cluster).count m = 1) ∧
      (g.machines d.cluster).Pairwise fun a b =>
        a.metadata.displayName < b.metadata.displayName) ∧
    ∀ gs, d.groups = .ok gs → gs.Pairwise fun g k =>
      ∀ m ∈ g.machines d.cluster, m ∉ k.machines d.cluster := by
  constructor
  · intro g returned
    obtain ⟨root, hid⟩ := returned.isRoot
    have members {m : Machine} := NodeGroup.mem_machines_iff reached placed root hid (m := m)
    refine ⟨fun m hm => ?_, fun m hm => ⟨(members.mp hm).1, ?_⟩,
      NodeGroup.machines_ascending reached placed root hid⟩
    · rw [members, root.leadsTo_iff]
      exact and_iff_right hm
    · exact List.count_eq_one_of_mem (NodeGroup.machines_nodup reached placed root hid) hm
  · intro gs h
    refine (groups_nodup reached h).imp_of_mem fun hg hk ne m hmg hmk => ne ?_
    exact eq_of_mem_machines reached placed h hg hk hmg hmk

end Directory

namespace Lab

/-- In the small cluster the deployment's Machine is found over two owners, and once. -/
theorem fleet_has_partMachine : directory.cluster.Reached ∧ directory.cluster.Placed ∧
    directory.Returns fleetGroup ∧ partMachine ∈ fleetGroup.machines directory.cluster ∧
    (fleetGroup.machines directory.cluster).count partMachine = 1 ∧
    partMachine ∉ soloGroup.machines directory.cluster := by
  obtain ⟨each, apart⟩ := Directory.machines_partition directory reached placed
  have returned : directory.Returns fleetGroup := Or.inl ⟨_, groups_eq, by decide⟩
  obtain ⟨exact, once, -⟩ := each fleetGroup returned
  have member : partMachine ∈ fleetGroup.machines directory.cluster :=
    (exact partMachine (by decide)).mpr ⟨part, rfl, rfl⟩
  have disjoint := List.pairwise_pair.mp (apart _ groups_eq)
  exact ⟨reached, placed, returned, member, (once partMachine member).2,
    fun other => disjoint partMachine other member⟩

end Lab
end NodeGroups
