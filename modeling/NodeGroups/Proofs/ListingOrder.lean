import NodeGroups.Proofs.Agreement
import NodeGroups.Proofs.Matching

/-!
# The order in which caches list

A cache may list its objects in any order. Two orders of the same objects answer the same: looks
go by keys, the groups of a listing are put in the order of their identifiers and the Machines of
a group in that of their names, and in neither of the two is anything repeated. The members of a
group are also found by the first Node with a provider ID, which is the only one where no two
Nodes have one ID. Of several faults the first one is told, so that which error a listing ends in
is not the same in all orders; that it ends in one is.
-/
namespace NodeGroups

namespace Cache

variable {α : Type} [Resource α] {c e : Cache α}

/-- The namespace, an absent one being the empty one, and the name. -/
def address (a : α) : String × Option String :=
  ((Resource.metadata a).ns.getD "", (Resource.metadata a).name)

/-- Every object has a key, and no two have one address. -/
structure Distinct (c : Cache α) : Prop where
  hasKey : ∀ a ∈ c.objects, c.keyOf a ≠ none
  apart : (c.objects.map address).Nodup

instance (c : Cache α) : Decidable c.Distinct :=
  decidable_of_iff ((∀ a ∈ c.objects, c.keyOf a ≠ none) ∧ (c.objects.map address).Nodup)
    ⟨fun h => ⟨h.1, h.2⟩, fun h => ⟨h.1, h.2⟩⟩

theorem address_eq_of_keyOf {a b : α} {key : Option String × String}
    (ha : c.keyOf a = some key) (hb : c.keyOf b = some key) : address a = address b := by
  obtain ⟨placea, namea⟩ := keyOf_eq_some ha
  obtain ⟨placeb, nameb⟩ := keyOf_eq_some hb
  have place := placea.trans placeb.symm
  have ns : (Resource.metadata a).ns.getD "" = (Resource.metadata b).ns.getD "" := by
    cases hc : c.keying with
    | folding =>
      rw [hc] at place
      exact filled_eq_filled_iff.mp place
    | exact =>
      rw [hc] at place
      exact congrArg (fun o => o.getD "") place
  rw [address, address, ns, namea, nameb]

/-- Objects of different addresses have different keys, however a cache keys. -/
theorem Distinct.keyed (h : c.Distinct) : c.Keyed where
  hasKey := h.hasKey
  distinct := by
    have apart := List.pairwise_map.mp h.apart
    refine List.pairwise_map.mpr (apart.imp_of_mem fun ha _ ne same => ne ?_)
    obtain ⟨key, hk⟩ := Option.ne_none_iff_exists'.mp (h.hasKey _ ha)
    exact address_eq_of_keyOf hk (same.symm.trans hk)

theorem Distinct.eq_of_key (h : c.Distinct) {a b : α} (ha : a ∈ c.objects) (hb : b ∈ c.objects)
    {k : ObjectKey} (hka : (Resource.metadata a).key = .ok k)
    (hkb : (Resource.metadata b).key = .ok k) : a = b := by
  obtain ⟨nsa, namea, -⟩ := Metadata.key_eq_ok_iff.mp hka
  obtain ⟨nsb, nameb, -⟩ := Metadata.key_eq_ok_iff.mp hkb
  have same : address a = address b := by rw [address, address, nsa, nsb, namea, nameb]
  exact List.inj_on_of_nodup_map h.apart ha hb same

/-- The second cache lists the objects of the first one in another order. -/
structure Reordered (c e : Cache α) : Prop where
  keying : e.keying = c.keying
  perm : e.objects.Perm c.objects

section
variable (h : Reordered c e)

include h

theorem Reordered.within (ns : Option String) : (c.within ns).Perm (e.within ns) :=
  (h.perm.filter _).symm

theorem Reordered.under? (keyed : c.Keyed) (key : Option String × String) :
    c.under? key = e.under? key := by
  have keyede := keyed.perm h.keying h.perm
  ext a
  rw [keyed.under?_eq_some_iff, keyede.under?_eq_some_iff, h.perm.mem_iff, keyOf_eq h.keying]

theorem Reordered.get? (keyed : c.Keyed) (ns : Option String) (name : String) :
    c.get? ns name = e.get? ns name := by
  rw [Cache.get?, Cache.get?, h.keying]
  simp only [h.under? keyed]

theorem Reordered.looksAlike (keyed : c.Keyed) : LooksAlike c e := fun ns name _ =>
  h.get? keyed ns name

end

end Cache

namespace Cluster

/-- The objects of each kind are distinct. -/
structure Distinct (c : Cluster) : Prop where
  nodes : c.nodes.Distinct
  machines : c.machines.Distinct
  machineSets : c.machineSets.Distinct
  machineDeployments : c.machineDeployments.Distinct

theorem Distinct.reached {c : Cluster} (h : c.Distinct) : c.Reached :=
  ⟨h.nodes.keyed.reached, h.machines.keyed.reached, h.machineSets.keyed.reached,
    h.machineDeployments.keyed.reached⟩

theorem Distinct.rootsApart {c : Cluster} (h : c.Distinct) : c.RootsApart := by
  intro r s id hr hs hri hsi
  obtain ⟨kindr, keyr⟩ := Root.id_eq_ok_iff.mp hri
  obtain ⟨kinds, keys⟩ := Root.id_eq_ok_iff.mp hsi
  cases r with
  | machineSet a =>
    cases s with
    | machineSet b => rw [h.machineSets.eq_of_key hr.1 hs.1 keyr keys]
    | machineDeployment b => cases kindr.trans kinds.symm
  | machineDeployment a =>
    cases s with
    | machineSet b => cases kindr.trans kinds.symm
    | machineDeployment b => rw [h.machineDeployments.eq_of_key hr hs keyr keys]

/-- The second cluster lists the objects of the first one in other orders. -/
structure Reordered (c e : Cluster) : Prop where
  nodes : c.nodes.Reordered e.nodes
  machines : c.machines.Reordered e.machines
  machineSets : c.machineSets.Reordered e.machineSets
  machineDeployments : c.machineDeployments.Reordered e.machineDeployments

namespace Reordered

variable {c e : Cluster} (h : c.Reordered e)

include h

theorem distinct (distinct : c.Distinct) : e.Distinct := by
  have kept {α : Type} [Resource α] {c e : Cache α} (h : c.Reordered e) (distinct : c.Distinct) :
      e.Distinct := by
    refine ⟨fun a ha => ?_, (h.perm.map _).nodup_iff.mpr distinct.apart⟩
    rw [Cache.keyOf_eq h.keying]
    exact distinct.hasKey a (h.perm.mem_iff.mp ha)
  exact ⟨kept h.nodes distinct.nodes, kept h.machines distinct.machines,
    kept h.machineSets distinct.machineSets, kept h.machineDeployments distinct.machineDeployments⟩

theorem owners (reached : c.Reached) : OwnersAlike c e :=
  ⟨h.machineSets.looksAlike reached.machineSets.keyed,
    h.machineDeployments.looksAlike reached.machineDeployments.keyed⟩

theorem isRoot_iff (reached : c.Reached) {r : Root} : c.IsRoot r ↔ e.IsRoot r := by
  cases r with
  | machineSet ms =>
    rw [IsRoot, IsRoot, (h.owners reached).rootOf, h.machineSets.perm.mem_iff]
  | machineDeployment md => exact h.machineDeployments.perm.mem_iff.symm

theorem machines_eq (reached : c.Reached) (g : NodeGroup) : g.machines c = g.machines e :=
  NodeGroup.machines_congr rfl (h.machines.within _) ((h.machineSets.within _).map _)
    reached.machines.keyed rfl

/-- The first Node with an ID is the same in both when it is the only one. -/
theorem nodeByProviderId? (ids : DistinctBy c.nodes.objects Node.providerId?) :
    c.nodeByProviderId? = e.nodeByProviderId? := by
  have idse : DistinctBy e.nodes.objects Node.providerId? := fun a ha b hb =>
    ids a (h.nodes.perm.mem_iff.mp ha) b (h.nodes.perm.mem_iff.mp hb)
  funext id
  rw [Cluster.nodeByProviderId?, Cluster.nodeByProviderId?, Cache.within_none, Cache.within_none]
  refine if_congr Iff.rfl rfl (Option.ext fun n => ?_)
  rw [ids.find?_eq_some_iff, idse.find?_eq_some_iff, h.nodes.perm.mem_iff]

theorem members_eq (reached : c.Reached) (ids : DistinctBy c.nodes.objects Node.providerId?)
    (g : NodeGroup) : g.members c = g.members e := by
  refine NodeGroup.members_of_looks (h.nodeByProviderId? ids) (funext fun name => ?_)
    (h.machines_eq reached g)
  exact h.nodes.get? reached.nodes.keyed none name

end Reordered

end Cluster

namespace Directory

section
variable {d : Directory} {e : Cluster} (h : d.cluster.Reordered e)

include h

theorem mem_roots_of_reordered (reached : d.cluster.Reached) {r : Root} :
    r ∈ d.roots ↔ r ∈ (d.reading e).roots := by
  rw [mem_roots_iff, mem_roots_iff, h.isRoot_iff reached, reading]

theorem exists_groups_of_reordered (reached : d.cluster.Reached) :
    (∃ gs, d.groups = .ok gs) ↔ ∃ gs, (d.reading e).groups = .ok gs := by
  have sets {ms : MachineSet} : ms ∈ d.scopedSets ↔ ms ∈ (d.reading e).scopedSets :=
    (h.machineSets.within _).mem_iff
  have above : (d.reading e).cluster.rootOf = d.cluster.rootOf := (h.owners reached).rootOf.symm
  simp only [exists_groups_iff, sets, mem_roots_of_reordered h reached, above]

theorem groups_of_reordered (distinct : d.cluster.Distinct) {gs : List NodeGroup}
    (went : d.groups = .ok gs) : (d.reading e).groups = .ok gs := by
  have distincte := h.distinct distinct
  obtain ⟨ks, wente⟩ := (exists_groups_of_reordered h distinct.reached).mp ⟨gs, went⟩
  have ascending := groups_ascending_of_apart distinct.reached distinct.rootsApart went
  have ascendinge : ks.Pairwise fun a b => a.id.Before b.id :=
    groups_ascending_of_apart (d := d.reading e) distincte.reached distincte.rootsApart wente
  have same (g : NodeGroup) : g ∈ gs ↔ g ∈ ks := by
    simp only [mem_groups_iff_root went, mem_groups_iff_root wente,
      mem_roots_of_reordered h distinct.reached]
  rw [wente, eq_of_ascending ascending ascendinge same]

end

/-- Whatever the orders of the listings, the groups, their Machines and, where Nodes are told
apart by their provider IDs, their members are the same and come in the same order. -/
theorem answers_in_any_order (d : Directory) (e : Cluster) (distinct : d.cluster.Distinct)
    (reordered : d.cluster.Reordered e) :
    ((∃ gs, d.groups = .ok gs) ↔ ∃ gs, (d.reading e).groups = .ok gs) ∧
    (∀ gs, d.groups = .ok gs → (d.reading e).groups = .ok gs) ∧
    (∀ g : NodeGroup, g.machines d.cluster = g.machines e) ∧
    (DistinctBy d.cluster.nodes.objects Node.providerId? →
      ∀ g : NodeGroup, g.members d.cluster = g.members e) :=
  ⟨exists_groups_of_reordered reordered distinct.reached,
    fun _ went => groups_of_reordered reordered distinct went,
    reordered.machines_eq distinct.reached, reordered.members_eq distinct.reached⟩

end Directory

namespace Lab

/-- The small cluster with all listings the other way round. -/
def reversed : Cluster :=
  ⟨⟨.folding, [nodeB, nodeA]⟩, ⟨.folding, [soloMachine, partMachine]⟩, ⟨.folding, [solo, part]⟩,
    ⟨.folding, [fleet]⟩⟩

theorem reversed_answers : directory.cluster.Distinct ∧ directory.cluster.Reordered reversed ∧
    DistinctBy directory.cluster.nodes.objects Node.providerId? ∧
    (directory.reading reversed).groups = .ok [soloGroup, fleetGroup] ∧
    fleetGroup.members reversed = fleetGroup.members directory.cluster := by
  have distinct : directory.cluster.Distinct := ⟨by decide, by decide, by decide, by decide⟩
  have reordered : directory.cluster.Reordered reversed :=
    ⟨⟨rfl, .swap _ _ _⟩, ⟨rfl, .swap _ _ _⟩, ⟨rfl, .swap _ _ _⟩, ⟨rfl, .refl _⟩⟩
  have ids : DistinctBy directory.cluster.nodes.objects Node.providerId? := by decide
  obtain ⟨-, listed, -, members⟩ :=
    Directory.answers_in_any_order directory reversed distinct reordered
  exact ⟨distinct, reordered, ids, listed _ groups_eq, (members ids fleetGroup).symm⟩

end Lab
end NodeGroups
