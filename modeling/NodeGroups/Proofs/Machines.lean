import NodeGroups.Proofs.Listing

/-!
# Which Machines a group has

The Machines of a group are found from its root downwards, over the owner references of its
MachineSets and Machines. They are those from which the way upwards, one owner after the other,
leads to the root (`Cluster.LeadsTo`). Since that way is a function of the Machine, no Machine
is in two groups of a listing or twice in one.
-/
namespace NodeGroups

theorem nodup_filterMap_of_inj {α β : Type} {f : α → Option β} {l : List α} (h : l.Nodup)
    (inj : ∀ a ∈ l, ∀ b ∈ l, ∀ x, f a = some x → f b = some x → a = b) :
    (l.filterMap f).Nodup := by
  refine List.pairwise_filterMap.mpr (h.imp_of_mem fun ha hb ne x hx y hy same => ?_)
  subst same
  exact ne (inj _ ha _ hb x hx hy)

namespace Cluster

/-- The MachineSet that owns the Machine has this root. -/
def LeadsTo (c : Cluster) (m : Machine) (r : Root) : Prop :=
  ∃ ms, c.machineOwner? m = .ok (some ms) ∧ c.rootOf ms = .ok r

theorem LeadsTo.unique {c : Cluster} {m : Machine} {r s : Root} (hr : c.LeadsTo m r)
    (hs : c.LeadsTo m s) : r = s := by
  obtain ⟨ms, owner, root⟩ := hr
  obtain ⟨other, again, found⟩ := hs
  cases owner.symm.trans again
  cases root.symm.trans found
  rfl

/-- An owner has the namespace of the identifier under which it is a root. -/
theorem IsRoot.ns_eq {c : Cluster} (placed : c.Placed) {r : Root} (h : c.IsRoot r)
    {id : GroupId} (hid : r.id = .ok id) : r.metadata.ns = some id.ns := by
  obtain ⟨ns, name, hns, -, -, -, key⟩ := (h.placed placed).key_eq_ok
  cases key.symm.trans (Root.id_eq_ok_iff.mp hid).2
  exact hns

end Cluster

namespace NodeGroup

theorem machines_sorted (g : NodeGroup) (c : Cluster) :
    (g.machines c).Pairwise fun a b => a.metadata.displayName ≤ b.metadata.displayName := by
  have sorted : (g.machines c).Pairwise fun a b =>
      decide (a.metadata.displayName ≤ b.metadata.displayName) = true := by
    refine List.pairwise_mergeSort (fun a b k hab hbk => ?_) (fun a b => ?_) _
    · exact decide_eq_true
        (String.le_trans (of_decide_eq_true hab) (of_decide_eq_true hbk))
    · simpa using String.le_total a.metadata.displayName b.metadata.displayName
  exact sorted.imp of_decide_eq_true

section
variable {c : Cluster} (reached : c.Reached) (placed : c.Placed)

include reached placed in
theorem mem_ownedMachines_iff {g : NodeGroup} {ms : MachineSet}
    (hms : ms ∈ c.machineSets.objects) (hns : ms.metadata.ns = some g.id.ns) {m : Machine} :
    m ∈ g.ownedMachines c ms ↔
      m ∈ c.machines.objects ∧ c.machineOwner? m = .ok (some ms) := by
  rw [ownedMachines, List.mem_filter, Cache.mem_within_iff]
  constructor
  · rintro ⟨⟨hm, -⟩, own⟩
    exact ⟨hm, (Cluster.machineOwner?_eq_some_iff reached placed hm).mpr ⟨hms, own⟩⟩
  · rintro ⟨hm, owner⟩
    have own := ((Cluster.machineOwner?_eq_some_iff reached placed hm).mp owner).2
    obtain ⟨reference, -, same, -, -⟩ := owns_iff.mp own
    refine ⟨⟨hm, fun ns hg => ?_⟩, own⟩
    cases hg
    exact same.trans hns

/-- Machines that are found in the order of their names are the group's as they are. -/
theorem machines_of_ascending {g : NodeGroup} {c : Cluster} {ms : List Machine}
    (h : g.unsortedMachines c = ms)
    (ascending : ms.Pairwise fun a b => a.metadata.displayName ≤ b.metadata.displayName) :
    g.machines c = ms := by
  rw [machines, h]
  exact List.mergeSort_of_pairwise (ascending.imp decide_eq_true)

section
variable {g : NodeGroup} (root : c.IsRoot g.root) (hid : g.root.id = .ok g.id)

include reached placed root hid in
theorem mem_ownedSets_iff {md : MachineDeployment} (hr : g.root = .machineDeployment md)
    {ms : MachineSet} :
    ms ∈ (c.machineSets.within (some g.id.ns)).filter (fun ms => owns md ms.metadata) ↔
      ms ∈ c.machineSets.objects ∧ ms.metadata.ns = some g.id.ns ∧
        c.rootOf ms = .ok g.root := by
  have hns := root.ns_eq placed hid
  rw [hr] at hns root
  rw [List.mem_filter, Cache.mem_within_iff, hr]
  simp only [Cluster.rootOf_eq_machineDeployment]
  constructor
  · rintro ⟨⟨hms, same⟩, own⟩
    exact ⟨hms, same _ rfl,
      (Cluster.machineSetOwner?_eq_some_iff reached placed hms).mpr ⟨root, own⟩⟩
  · rintro ⟨hms, same, owner⟩
    refine ⟨⟨hms, fun ns hg => ?_⟩,
      ((Cluster.machineSetOwner?_eq_some_iff reached placed hms).mp owner).2⟩
    cases hg
    exact same

include reached placed root hid in
/-- Downwards from the root and upwards from the Machine is the same. -/
theorem mem_machines_iff {m : Machine} :
    m ∈ g.machines c ↔ m ∈ c.machines.objects ∧ c.LeadsTo m g.root := by
  have hns := root.ns_eq placed hid
  rw [machines, List.mem_mergeSort, unsortedMachines]
  cases hr : g.root with
  | machineSet ms =>
    rw [hr] at root hns
    simp only [mem_ownedMachines_iff reached placed root.1 hns]
    constructor
    · rintro ⟨hm, owner⟩
      exact ⟨hm, ms, owner, root.2⟩
    · rintro ⟨hm, other, owner, found⟩
      obtain ⟨rfl, -⟩ := Cluster.rootOf_eq_machineSet.mp found
      exact ⟨hm, owner⟩
  | machineDeployment md =>
    simp only [List.mem_flatMap, mem_ownedSets_iff reached placed root hid hr]
    rw [hr] at hns
    constructor
    · rintro ⟨ms, ⟨hms, same, found⟩, owned⟩
      obtain ⟨hm, owner⟩ := (mem_ownedMachines_iff reached placed hms same).mp owned
      exact ⟨hm, ms, owner, hr ▸ found⟩
    · rintro ⟨hm, ms, owner, found⟩
      obtain ⟨hms, -⟩ := (Cluster.machineOwner?_eq_some_iff reached placed hm).mp owner
      have own := ((Cluster.machineSetOwner?_eq_some_iff reached placed hms).mp
        (Cluster.rootOf_eq_machineDeployment.mp found)).2
      obtain ⟨reference, -, above, -, -⟩ := owns_iff.mp own
      have same := above.trans hns
      exact ⟨ms, ⟨hms, same, hr ▸ found⟩,
        (mem_ownedMachines_iff reached placed hms same).mpr ⟨hm, owner⟩⟩

include reached placed root hid in
theorem machines_nodup : (g.machines c).Nodup := by
  have owned (ms : MachineSet) : (g.ownedMachines c ms).Nodup :=
    (reached.machines.keyed.within_nodup _).filter _
  rw [machines, (List.mergeSort_perm _ _).nodup_iff, unsortedMachines]
  cases hr : g.root with
  | machineSet ms => exact owned ms
  | machineDeployment md =>
    have sets := (reached.machineSets.keyed.within_nodup (some g.id.ns)).filter
      fun ms => owns md ms.metadata
    refine List.nodup_flatMap.mpr ⟨fun ms _ => owned ms, ?_⟩
    refine sets.imp_of_mem fun ha hb ne => List.disjoint_left.mpr fun m hma hmb => ne ?_
    obtain ⟨cacheda, samea, -⟩ := (mem_ownedSets_iff reached placed root hid hr).mp ha
    obtain ⟨cachedb, sameb, -⟩ := (mem_ownedSets_iff reached placed root hid hr).mp hb
    have ownera := ((mem_ownedMachines_iff reached placed cacheda samea).mp hma).2
    have ownerb := ((mem_ownedMachines_iff reached placed cachedb sameb).mp hmb).2
    cases ownera.symm.trans ownerb
    rfl

end

end

end NodeGroup

namespace Directory

section
variable {d : Directory} (reached : d.cluster.Reached) (placed : d.cluster.Placed)
  {gs : List NodeGroup} (h : d.groups = .ok gs)

include reached placed h in
theorem mem_machines_of_groups {g : NodeGroup} (hg : g ∈ gs) {m : Machine} :
    m ∈ g.machines d.cluster ↔
      m ∈ d.cluster.machines.objects ∧ d.cluster.LeadsTo m g.root :=
  NodeGroup.mem_machines_iff reached placed ((mem_groups_iff h).mp hg).1 (id_of_mem_groups h hg)

include reached placed h in
theorem cached_of_mem_machines {g : NodeGroup} (hg : g ∈ gs) {m : Machine}
    (below : m ∈ g.machines d.cluster) : m ∈ d.cluster.machines.objects :=
  ((mem_machines_of_groups reached placed h hg).mp below).1

include reached placed h in
theorem eq_of_mem_machines {g k : NodeGroup} (hg : g ∈ gs) (hk : k ∈ gs) {m : Machine}
    (hmg : m ∈ g.machines d.cluster) (hmk : m ∈ k.machines d.cluster) : g = k := by
  have upg := ((mem_machines_of_groups reached placed h hg).mp hmg).2
  have upk := ((mem_machines_of_groups reached placed h hk).mp hmk).2
  have groupedg := ((mem_groups_iff h).mp hg).2.2
  have groupedk := ((mem_groups_iff h).mp hk).2.2
  rw [upg.unique upk] at groupedg
  cases groupedg.symm.trans groupedk
  rfl

include reached placed h in
/-- No Machine is counted twice over a whole listing. -/
theorem groups_machines_nodup : (gs.flatMap fun g => g.machines d.cluster).Nodup := by
  refine List.nodup_flatMap.mpr ⟨fun g hg => ?_, ?_⟩
  · exact NodeGroup.machines_nodup reached placed ((mem_groups_iff h).mp hg).1
      (id_of_mem_groups h hg)
  · exact (groups_nodup reached h).imp_of_mem fun hg hk ne =>
      List.disjoint_left.mpr fun m hmg hmk =>
        ne (eq_of_mem_machines reached placed h hg hk hmg hmk)

end

end Directory
end NodeGroups
