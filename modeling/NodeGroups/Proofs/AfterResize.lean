import NodeGroups.Proofs.Lookup
import NodeGroups.Proofs.Resizing
import NodeGroups.Proofs.Revision

/-!
# After a resize

A replica count that is accepted for a group lies within the bounds of the group. Once the root
declares it, the group has the new size, or is none any more where the count is zero, and
nothing else has changed: the listing, the looks and the walks from Nodes tell of the new group
where they told of the old one (`NodeGroup.after`), and of the others what they did.
-/
namespace NodeGroups

namespace Root

/-- The root with another replica count. -/
def withReplicas (n : Int32) : Root → Root
  | machineSet ms => machineSet (ms.withReplicas n)
  | machineDeployment md => machineDeployment (md.withReplicas n)

variable {r : Root} {n : Int32}

theorem id_withReplicas : (r.withReplicas n).id = r.id := by
  cases r <;> rfl

theorem metadata_withReplicas : (r.withReplicas n).metadata = r.metadata := by
  cases r <;> rfl

theorem replicas_withReplicas : (r.withReplicas n).replicas = n := by
  cases r <;> rfl

theorem bare_withReplicas : (r.withReplicas n).bare = r.bare := by
  cases r <;> rfl

end Root

namespace NodeGroup

/-- The group once its root declares the replica count: none at zero. -/
def resizedTo (g : NodeGroup) (n : Int32) : Option NodeGroup :=
  if 0 < n then some { g with root := g.root.withReplicas n } else none

/-- What becomes of a group when one of the groups is resized. -/
def after (g : NodeGroup) (n : Int32) (k : NodeGroup) : Option NodeGroup :=
  if k = g then g.resizedTo n else some k

theorem id_of_after {g k t : NodeGroup} {n : Int32} (h : g.after n k = some t) : t.id = k.id := by
  rw [after] at h
  split at h
  · next same =>
    rw [resizedTo] at h
    split at h
    · cases h
      rw [same]
    · cases h
  · cases h
    rfl

/-- One of the three ways to resize the group comes to this request. -/
def Accepts (g : NodeGroup) (c : Cluster) (r : Resize) : Prop :=
  (∃ n, g.setSize n = .ok r) ∨ (∃ delta, g.increaseSize delta = .ok r) ∨
    ∃ delta, g.decreaseTargetSize c delta = .ok r

/-- A request is for the group itself and for a size within its bounds. -/
theorem Accepts.within {g : NodeGroup} {c : Cluster} {r : Resize} (h : g.Accepts c r) :
    r.group = g.id ∧ g.bounds.contains r.replicas = true := by
  rcases h with ⟨n, set⟩ | ⟨delta, increased⟩ | ⟨delta, decreased⟩
  · obtain ⟨admitted, asked⟩ := setSize_eq_ok_iff.mp set
    exact asked.within admitted
  · obtain ⟨⟨-, admitted⟩, asked⟩ := increaseSize_eq_ok_iff.mp increased
    exact asked.within admitted
  · obtain ⟨⟨-, -, admitted⟩, asked⟩ := decreaseTargetSize_eq_ok_iff_admits.mp decreased
    exact asked.within admitted

end NodeGroup

/-- The group of a root that declares another replica count. -/
theorem Root.group?_withReplicas {g : NodeGroup} (h : g.root.group? = .ok (some g)) (n : Int32) :
    (g.root.withReplicas n).group? = .ok (g.resizedTo n) := by
  obtain ⟨id, b, hid, qualifies, made⟩ := group?_eq_some_iff.mp h
  have declared : (g.root.withReplicas n).bounds = .ok (some b) := by
    rw [bounds_of_id (id_withReplicas.trans hid), metadata_withReplicas]
    exact Bounds.ofAnnotations_eq_some_iff.mpr qualifies.declares
  have room : b.hasRoom = true := Bounds.hasRoom_iff.mpr qualifies.room
  obtain ⟨gid, root, bounds⟩ := g
  cases made
  rw [group?, declared, NodeGroup.resizedTo]
  by_cases wanted : 0 < n
  · simp only [room, replicas_withReplicas, wanted, and_self, if_true, Except.map,
      ofRoot_of_id (id_withReplicas.trans hid)]
  · simp only [replicas_withReplicas, wanted, and_false, if_false]

/-- What a root makes after a group's root was written to is what becomes of what it made. -/
theorem Root.group?_instead {g : NodeGroup} (h : g.root.group? = .ok (some g)) (n : Int32)
    (r : Root) : (instead g.root (g.root.withReplicas n) r).group? =
      r.group?.map fun made => made.bind (g.after n) := by
  by_cases same : r = g.root
  · rw [same, instead_self, group?_withReplicas h, h]
    simp [Except.map, NodeGroup.after]
  · rw [instead_of_ne same]
    cases made : r.group? with
    | error e => rfl
    | ok group =>
      cases group with
      | none => rfl
      | some k =>
        have other : k ≠ g := by
          rintro rfl
          exact same (id_of_group? made).1.symm
        simp [Except.map, NodeGroup.after, other]

namespace Directory

theorem groupAt_instead {g : NodeGroup} (h : g.root.group? = .ok (some g)) (n : Int32)
    (r : Root) : groupAt (instead g.root (g.root.withReplicas n) r) =
      (groupAt r).map fun made => made.bind (g.after n) := by
  rw [groupAt, groupAt, Root.group?_instead h]
  cases r.group? with
  | ok group => rfl
  | error e =>
    cases wrong : e.isMisconfiguration <;> simp [Except.map, wrong]

section
variable {d : Directory} {e : Cluster} {f : MachineSet → MachineSet}
  {h : MachineDeployment → MachineDeployment} (revised : Cluster.Revised f h d.cluster e)
  {g : NodeGroup} {n : Int32}
  (written : ∀ r, r.revised f h = instead g.root (g.root.withReplicas n) r)
  (grouped : g.root.group? = .ok (some g))

include revised written

theorem mem_roots_after {r : Root} : r ∈ (d.reading e).roots ↔
    ∃ t ∈ d.roots, instead g.root (g.root.withReplicas n) t = r := by
  have covers (t : Root) : d.settings.Covers (t.revised f h).metadata ↔
      d.settings.Covers t.metadata := by
    rw [written]
    by_cases same : t = g.root
    · rw [same, instead_self, Root.metadata_withReplicas]
    · rw [instead_of_ne same]
  rw [mem_roots_iff, reading, revised.isRoot_iff]
  constructor
  · rintro ⟨⟨t, root, rfl⟩, covered⟩
    exact ⟨t, mem_roots_iff.mpr ⟨root, (covers t).mp covered⟩, (written t).symm⟩
  · rintro ⟨t, ht, rfl⟩
    obtain ⟨root, covered⟩ := mem_roots_iff.mp ht
    rw [← written]
    exact ⟨⟨t, root, rfl⟩, (covers t).mpr covered⟩

include grouped

theorem exists_groups_after {gs : List NodeGroup} (went : d.groups = .ok gs) :
    ∃ ks, (d.reading e).groups = .ok ks := by
  obtain ⟨followed, made⟩ := exists_groups_iff.mp ⟨gs, went⟩
  refine exists_groups_iff.mpr ⟨fun ms hms => ?_, fun r hr => ?_⟩
  · have hms := (revised.machineSets.within_perm d.settings.ns).mem_iff.mp hms
    obtain ⟨own, seen, rfl⟩ := List.mem_map.mp hms
    obtain ⟨root, above⟩ := followed own seen
    exact ⟨_, by rw [reading, revised.rootOf, above]; rfl⟩
  · obtain ⟨t, ht, rfl⟩ := (mem_roots_after revised written).mp hr
    obtain ⟨group, own⟩ := made t ht
    exact ⟨_, by rw [Root.group?_instead grouped, own]; rfl⟩

theorem mem_groups_after {gs ks : List NodeGroup} (went : d.groups = .ok gs)
    (wente : (d.reading e).groups = .ok ks) {k : NodeGroup} :
    k ∈ ks ↔ ∃ t ∈ gs, g.after n t = some k := by
  have made (r : Root) : (instead g.root (g.root.withReplicas n) r).group? = .ok (some k) ↔
      ∃ t, r.group? = .ok (some t) ∧ g.after n t = some k := by
    rw [Root.group?_instead grouped]
    cases r.group? with
    | error failed => simp [Except.map]
    | ok group => cases group <;> simp [Except.map]
  rw [mem_groups_iff_root wente]
  constructor
  · rintro ⟨r, hr, own⟩
    obtain ⟨t, ht, rfl⟩ := (mem_roots_after revised written).mp hr
    obtain ⟨before, first, became⟩ := (made t).mp own
    exact ⟨before, (mem_groups_iff_root went).mpr ⟨t, ht, first⟩, became⟩
  · rintro ⟨before, listed, became⟩
    obtain ⟨t, ht, first⟩ := (mem_groups_iff_root went).mp listed
    exact ⟨_, (mem_roots_after revised written).mpr ⟨t, ht, rfl⟩,
      (made t).mpr ⟨before, first, became⟩⟩

theorem groupForNode_after (node : Node) : (d.reading e).groupForNode node =
    (d.groupForNode node).map fun found => found.bind (g.after n) := by
  rw [groupForNode_eq, groupForNode_eq, reading, revised.machineForNode?]
  cases d.cluster.machineForNode? node with
  | error failed => rfl
  | ok found =>
    simp only [Except.bind]
    cases found.filter fun m => d.settings.inScope (m.metadata.ns.getD "") with
    | none => rfl
    | some m =>
      simp only [Option.elim, revised.above]
      cases d.cluster.above m with
      | error failed => rfl
      | ok root =>
        cases root with
        | none => rfl
        | some r => simp only [Except.map, Option.map_some, written, groupAt_instead grouped]

/-- The listing is the one before, with what became of the group in the place of the group. -/
theorem groups_after (reached : d.cluster.Reached) (memory : d.cluster.InMemory)
    (reachede : e.Reached) (memorye : e.InMemory) {gs : List NodeGroup}
    (went : d.groups = .ok gs) : (d.reading e).groups = .ok (gs.filterMap (g.after n)) := by
  obtain ⟨ks, wente⟩ := exists_groups_after revised written grouped went
  have ascending := groups_ascending reached memory.direct.ownersStay went
  have ascendinge := groups_ascending (d := d.reading e) reachede memorye.direct.ownersStay wente
  have kept : (gs.filterMap (g.after n)).Pairwise fun a b => a.id.Before b.id := by
    refine List.pairwise_filterMap.mpr (ascending.imp fun before a ha b hb => ?_)
    rw [NodeGroup.id_of_after ha, NodeGroup.id_of_after hb]
    exact before
  rw [wente, eq_of_ascending ascendinge kept fun k => ?_]
  rw [mem_groups_after revised written grouped went wente, List.mem_filterMap]

theorem lookup_after (reachede : e.Reached) (memorye : e.InMemory)
    (valid : d.settings.validate = .ok ()) (root : g.root ∈ d.roots) :
    (d.reading e).lookup g.id = .ok ((g.resizedTo n).elim .notScalable .scalable) := by
  have hid := (Root.id_of_group? grouped).2
  have new : g.root.withReplicas n ∈ (d.reading e).roots :=
    (mem_roots_after revised written).mpr ⟨g.root, root, instead_self⟩
  have look := (lookup_of_root (d := d.reading e) reachede memorye valid new
    (Root.id_withReplicas.trans hid)).2
  rw [look, lookupRoot, Root.group?_withReplicas grouped]
  cases g.resizedTo n <;> rfl

end

end Directory

namespace Cluster

variable {c : Cluster} (reached : c.Reached) (memory : c.InMemory) {root : Root}
  (cached : c.IsRoot root)

include reached memory cached

/-- A root can be written over with another replica count. -/
theorem exists_written (n : Int32) : ∃ e f h, c.applied (root.withReplicas n) = .ok e ∧
    e.Reached ∧ e.InMemory ∧ Revised f h c e ∧
    ∀ r, r.revised f h = instead root (root.withReplicas n) r := by
  obtain ⟨nodes, machines, machineSets, machineDeployments⟩ := memory
  cases root with
  | machineSet ms =>
    have kept : (ms.withReplicas n).metadata.identity = ms.metadata.identity := rfl
    obtain ⟨went, filled, revised⟩ := applied_machineSet reached cached.1 kept
    refine ⟨_, _, _, went, filled, ⟨nodes, machines, machineSets, machineDeployments⟩, revised,
      fun r => ?_⟩
    cases r with
    | machineSet own =>
      by_cases same : own = ms <;> simp [Root.revised, Root.withReplicas, instead, same]
    | machineDeployment md => simp [Root.revised, instead]
  | machineDeployment md =>
    have kept : (md.withReplicas n).metadata.identity = md.metadata.identity := rfl
    obtain ⟨went, filled, revised⟩ := applied_machineDeployment reached cached kept
    refine ⟨_, _, _, went, filled, ⟨nodes, machines, machineSets, machineDeployments⟩, revised,
      fun r => ?_⟩
    cases r with
    | machineSet ms => simp [Root.revised, instead]
    | machineDeployment own =>
      by_cases same : own = md <;> simp [Root.revised, Root.withReplicas, instead, same]

/-- The request for a root is carried out on the root. -/
theorem resized_eq_applied {request : Resize} (hid : root.id = .ok request.group) :
    c.resized request = c.applied (root.withReplicas request.replicas) := by
  obtain ⟨kind, key⟩ := Root.id_eq_ok_iff.mp hid
  have folded : (filled (some request.group.ns)).getD "" = request.group.ns := by
    by_cases empty : request.group.ns = "" <;> simp [filled, empty]
  rw [← folded] at key
  cases root with
  | machineSet ms =>
    have found := (reached.machineSets.keyed.get?_folding memory.machineSets).mpr ⟨cached.1, key⟩
    rw [resized, ← kind]
    simp only [Root.kind, found]
    rfl
  | machineDeployment md =>
    have found :=
      (reached.machineDeployments.keyed.get?_folding memory.machineDeployments).mpr ⟨cached, key⟩
    rw [resized, ← kind]
    simp only [Root.kind, found]
    rfl

end Cluster

namespace NodeGroup

variable {g : NodeGroup} {n : Int32}

theorem resizedTo_of_pos (h : 0 < n) :
    g.resizedTo n = some { g with root := g.root.withReplicas n } := if_pos h

/-- A size within declared bounds that is not above zero is zero, and so is the least size. -/
theorem zero_of_within (grouped : g.root.group? = .ok (some g))
    (within : g.bounds.contains n = true) (h : ¬ 0 < n) : n = 0 ∧ g.minSize = 0 := by
  obtain ⟨⟨⟨_, _, -, -, declared⟩, -, -⟩, -⟩ := Root.group?_own_iff.mp grouped
  have nonneg : 0 ≤ g.bounds.min := Int32.le_iff_toInt_le.mpr declared.nonneg
  rw [Bounds.contains, Bool.and_eq_true, decide_eq_true_iff, decide_eq_true_iff] at within
  have zero : n = 0 := Int32.le_antisymm (Int32.not_lt.mp h) (Int32.le_trans nonneg within.1)
  exact ⟨zero, Int32.le_antisymm (zero ▸ within.1) nonneg⟩

end NodeGroup

/-- A size that is accepted for a listed group and then declared by its root makes the group one
of that size, or none, and leaves all else as it was. -/
theorem Directory.resize_changes_one_group (d : Directory) (reached : d.cluster.Reached)
    (memory : d.cluster.InMemory) (valid : d.settings.validate = .ok ()) (gs : List NodeGroup)
    (went : d.groups = .ok gs) (g : NodeGroup) (hg : g ∈ gs) (request : Resize)
    (accepted : g.Accepts d.cluster request) :
    ∃ e, d.cluster.applied (g.root.withReplicas request.replicas) = .ok e ∧
      d.cluster.resized request = .ok e ∧
      (d.reading e).groups = .ok (gs.filterMap (g.after request.replicas)) ∧
      (0 < request.replicas → ∃ k, g.resizedTo request.replicas = some k ∧
        (d.reading e).lookup g.id = .ok (.scalable k) ∧ k.size = request.replicas ∧
        k.minSize = g.minSize ∧ k.maxSize = g.maxSize ∧
        k.machines e = g.machines d.cluster ∧ k.members e = g.members d.cluster) ∧
      (¬ 0 < request.replicas → request.replicas = 0 ∧ g.minSize = 0 ∧
        (∀ k ∈ gs.filterMap (g.after request.replicas), k.id ≠ g.id) ∧
        (d.reading e).lookup g.id = .ok .notScalable) ∧
      (∀ k ∈ gs, k ≠ g → k.summary e = k.summary d.cluster) ∧
      ∀ node, (d.reading e).groupForNode node =
        (d.groupForNode node).map fun found => found.bind (g.after request.replicas) := by
  obtain ⟨root, covered, grouped⟩ := (mem_groups_iff went).mp hg
  obtain ⟨same, within⟩ := accepted.within
  have hid : g.root.id = .ok request.group := same ▸ (Root.id_of_group? grouped).2
  obtain ⟨e, f, h, applied, reachede, memorye, revised, written⟩ :=
    Cluster.exists_written reached memory root request.replicas
  have look := lookup_after revised written grouped reachede memorye valid
    (mem_roots_iff.mpr ⟨root, covered⟩)
  have keyed := reached.machines.keyed
  refine ⟨e, applied, (Cluster.resized_eq_applied reached memory root hid).trans applied,
    groups_after revised written grouped reached memory reachede memorye went, ?_, ?_, ?_,
    groupForNode_after revised written grouped⟩
  · intro wanted
    have became := NodeGroup.resizedTo_of_pos (g := g) wanted
    rw [became] at look
    exact ⟨_, became, look, Root.replicas_withReplicas, rfl, rfl,
      revised.machines_eq keyed rfl Root.bare_withReplicas.symm,
      revised.members_eq keyed rfl Root.bare_withReplicas.symm⟩
  · intro unwanted
    have gone : g.resizedTo request.replicas = none := if_neg unwanted
    obtain ⟨zero, least⟩ := NodeGroup.zero_of_within grouped within unwanted
    rw [gone] at look
    refine ⟨zero, least, fun k hk again => ?_, look⟩
    obtain ⟨t, ht, became⟩ := List.mem_filterMap.mp hk
    have one : t = g := eq_of_mem_groups reached memory.direct.ownersStay went ht hg
      ((NodeGroup.id_of_after became).symm.trans again)
    rw [one, NodeGroup.after, if_pos rfl, gone] at became
    cases became
  · intro k _ _
    exact NodeGroup.summary_congr revised.nodes (revised.machines_eq keyed rfl rfl)

namespace Lab

def grownSolo : NodeGroup := { soloGroup with root := soloGroup.root.withReplicas 3 }

/-- In the small cluster `solo` grows to three, and `fleet`, which may have none, is gone at
zero together with the group of its Node. -/
theorem solo_grown_fleet_gone : directory.cluster.Reached ∧ directory.cluster.InMemory ∧
    directory.settings.validate = .ok () ∧ directory.groups = .ok [soloGroup, fleetGroup] ∧
    soloGroup.Accepts directory.cluster ⟨soloGroup.id, 3⟩ ∧
    fleetGroup.Accepts directory.cluster ⟨fleetGroup.id, 0⟩ ∧
    (∃ e, directory.cluster.applied (soloGroup.root.withReplicas 3) = .ok e ∧
      (directory.reading e).groups = .ok [grownSolo, fleetGroup] ∧
      (directory.reading e).lookup soloGroup.id = .ok (.scalable grownSolo)) ∧
    ∃ e, directory.cluster.applied (fleetGroup.root.withReplicas 0) = .ok e ∧
      (directory.reading e).groups = .ok [soloGroup] ∧
      (directory.reading e).lookup fleetGroup.id = .ok .notScalable ∧
      (directory.reading e).groupForNode nodeB = .ok none := by
  have valid : directory.settings.validate = .ok () := rfl
  have grows : soloGroup.Accepts directory.cluster ⟨soloGroup.id, 3⟩ := Or.inl ⟨3, rfl⟩
  have empties : fleetGroup.Accepts directory.cluster ⟨fleetGroup.id, 0⟩ := Or.inl ⟨0, rfl⟩
  refine ⟨reached, inMemory, valid, groups_eq, grows, empties, ?_, ?_⟩
  · obtain ⟨e, applied, -, listed, larger, -⟩ := Directory.resize_changes_one_group directory
      reached inMemory valid _ groups_eq soloGroup (by decide) _ grows
    obtain ⟨k, became, look, -⟩ := larger (by decide)
    cases became
    exact ⟨e, applied, listed, look⟩
  · obtain ⟨e, applied, -, listed, -, empty, -, walked⟩ := Directory.resize_changes_one_group
      directory reached inMemory valid _ groups_eq fleetGroup (by decide) _ empties
    exact ⟨e, applied, listed, (empty (by decide)).2.2.2, walked nodeB⟩

end Lab
end NodeGroups
