import Mathlib.Data.List.Perm.Basic
import NodeGroups.Proofs.Ancestry
import NodeGroups.Summary

/-!
# What the answers depend on

Other objects know an object by its name, namespace and uid, and by its owners; its annotations,
labels and spec are nothing to them (`Metadata.identity`). The root above a Machine is found from
the identities of what stands between (`Cluster.above`), and the Machines of a group depend on
the group's namespace and root, and there on the Machines and on the identities of the
MachineSets (`NodeGroup.machines_congr`). The order in which objects are listed does not matter
to a group: its Machines are put in the order of their names, of which no two are the same.
-/
namespace NodeGroups

namespace Metadata

/-- Name, namespace, uid and owners, with all else left out. -/
def identity (m : Metadata) : Metadata :=
  { empty with name := m.name, ns := m.ns, uid := m.uid, ownerReferences := m.ownerReferences }

variable {m k : Metadata}

theorem identity_eq_iff : m.identity = k.identity ↔ m.name = k.name ∧ m.ns = k.ns ∧
    m.uid = k.uid ∧ m.ownerReferences = k.ownerReferences := by
  simp [identity]

theorem name_of_identity (h : m.identity = k.identity) : m.name = k.name :=
  (identity_eq_iff.mp h).1

theorem ns_of_identity (h : m.identity = k.identity) : m.ns = k.ns :=
  (identity_eq_iff.mp h).2.1

theorem uid_of_identity (h : m.identity = k.identity) : m.uid = k.uid :=
  (identity_eq_iff.mp h).2.2.1

theorem ownerOfKind?_of_identity (h : m.identity = k.identity) (kind : String) :
    m.ownerOfKind? kind = k.ownerOfKind? kind := by
  rw [ownerOfKind?, ownerOfKind?, (identity_eq_iff.mp h).2.2.2]

/-- The key and the uid that the first reference of the kind asks for. -/
def ownerKey? (m : Metadata) (kind : String) : Except Error (Option (ObjectKey × String)) :=
  match m.ownerOfKind? kind with
  | none => .ok none
  | some reference =>
    (ObjectKey.parse (ownerKeyText m reference)).map fun key => some (key, reference.uid)

theorem ownerKey?_of_identity (h : m.identity = k.identity) (kind : String) :
    m.ownerKey? kind = k.ownerKey? kind := by
  rw [ownerKey?, ownerKey?, ownerOfKind?_of_identity h]
  simp only [ownerKeyText, ns_of_identity h]

/-- An owner is looked up in the namespace of what it owns. -/
theorem ns_of_ownerKey? {kind : String} {ns : String} (hns : m.ns = some ns) (hne : ns ≠ "")
    {key : ObjectKey} {uid : String} (h : m.ownerKey? kind = .ok (some (key, uid))) :
    key.ns = ns := by
  rw [ownerKey?] at h
  split at h
  · cases h
  · next reference first =>
    rw [ownerKeyText_eq hns hne] at h
    cases parsed : ObjectKey.parse (ns ++ "/" ++ reference.name) with
    | error e => simp [parsed, Except.map] at h
    | ok found =>
      simp only [parsed, Except.map, Except.ok.injEq, Option.some.injEq, Prod.mk.injEq] at h
      rw [← h.1]
      exact ObjectKey.ns_eq_of_parse_pair parsed

end Metadata

section
variable {α : Type} [Resource α]

/-- Following a reference is one look at the cache. -/
theorem owner?_eq (owned : Metadata) (owners : Cache α) : owner? owned owners =
    (owned.ownerKey? (Resource.kind α)).map fun asked => asked.bind fun look =>
      (owners.get? look.1.ns? look.1.name).filter fun o =>
        (Resource.metadata o).uid = some look.2 := by
  rw [owner?, Metadata.ownerKey?]
  cases owned.ownerOfKind? (Resource.kind α) with
  | none => rfl
  | some reference =>
    cases parsed : ObjectKey.parse (ownerKeyText owned reference) with
    | error e => simp only [Except.map, parsed]
    | ok key =>
      simp only [Except.map, parsed, Option.bind_some]
      cases owners.get? key.ns? key.name with
      | none => rfl
      | some o =>
        by_cases uid : (Resource.metadata o).uid = some reference.uid <;>
          simp [Option.filter, uid]

theorem owner?_of_identity {m k : Metadata} (h : m.identity = k.identity) (owners : Cache α) :
    owner? m owners = owner? k owners := by
  rw [owner?_eq, owner?_eq, Metadata.ownerKey?_of_identity h]

theorem owns_of_identity {a b : α} {m k : Metadata}
    (owner : (Resource.metadata a).identity = (Resource.metadata b).identity)
    (owned : m.identity = k.identity) : owns a m = owns b k := by
  rw [owns, owns, Metadata.ownerOfKind?_of_identity owned, Metadata.ns_of_identity owned,
    Metadata.ns_of_identity owner, Metadata.name_of_identity owner,
    Metadata.uid_of_identity owner]

end

/-- A scalable object with nothing but its identity. -/
def Scalable.bare {kind : ScalableKind} (s : Scalable kind) : Scalable kind :=
  ⟨s.metadata.identity, "", none⟩

theorem Scalable.identity_of_bare {kind : ScalableKind} {s t : Scalable kind}
    (h : s.bare = t.bare) : s.metadata.identity = t.metadata.identity :=
  congrArg Scalable.metadata h

/-- A root with nothing but its identity. -/
def Root.bare : Root → Root
  | .machineSet ms => .machineSet ms.bare
  | .machineDeployment md => .machineDeployment md.bare

namespace NodeGroup

theorem mem_within_of_unsorted {g : NodeGroup} {c : Cluster} {m : Machine}
    (h : m ∈ g.unsortedMachines c) : m ∈ c.machines.within (some g.id.ns) := by
  rw [unsortedMachines] at h
  split at h
  · exact List.mem_of_mem_filter h
  · obtain ⟨ms, -, owned⟩ := List.mem_flatMap.mp h
    exact List.mem_of_mem_filter owned

section
variable {g k : NodeGroup} {c e : Cluster}

/-- The order in which the Machines were found is lost when they are sorted. -/
theorem machines_eq_of_perm (keyed : c.machines.Keyed)
    (perm : (g.unsortedMachines c).Perm (k.unsortedMachines e)) : g.machines c = k.machines e := by
  have sorted : (g.machines c).Perm (k.machines e) :=
    (List.mergeSort_perm _ _).trans (perm.trans (List.mergeSort_perm _ _).symm)
  refine sorted.eq_of_pairwise (fun a b ha hb hab hba => ?_) (g.machines_sorted c)
    (k.machines_sorted e)
  have within {m : Machine} (hm : m ∈ g.machines c) : m ∈ c.machines.within (some g.id.ns) :=
    mem_within_of_unsorted (List.mem_mergeSort.mp hm)
  obtain ⟨cacheda, nsa⟩ := Cache.mem_within_iff.mp (within ha)
  obtain ⟨cachedb, nsb⟩ := Cache.mem_within_iff.mp (within (sorted.mem_iff.mpr hb))
  exact keyed.eq_of_displayName cacheda cachedb ((nsa _ rfl).trans (nsb _ rfl).symm)
    (String.le_antisymm hab hba)

section
variable (ns : g.id.ns = k.id.ns)
  (machines : (c.machines.within (some g.id.ns)).Perm (e.machines.within (some g.id.ns)))

include ns machines in
theorem ownedMachines_congr {ms other : MachineSet} (same : ms.bare = other.bare) :
    (g.ownedMachines c ms).Perm (k.ownedMachines e other) := by
  have read : (fun m : Machine => owns ms m.metadata) = fun m => owns other m.metadata :=
    funext fun m => owns_of_identity (Scalable.identity_of_bare same) rfl
  rw [ownedMachines, ownedMachines, ← ns, read]
  exact machines.filter _

/-- Which MachineSets are owned, and what they own, can be read off the bare ones. -/
theorem flatMap_bare (g : NodeGroup) (c : Cluster) {md other : MachineDeployment}
    (same : md.bare = other.bare) (l : List MachineSet) :
    (l.filter fun ms => owns md ms.metadata).flatMap (g.ownedMachines c) =
      ((l.map Scalable.bare).filter fun ms => owns other ms.metadata).flatMap
        (g.ownedMachines c) := by
  have read : (fun ms : MachineSet => owns md ms.metadata) = fun ms => owns other ms.metadata :=
    funext fun ms => owns_of_identity (Scalable.identity_of_bare same) rfl
  rw [List.filter_map, List.flatMap_map, read]
  rfl

variable (sets : ((c.machineSets.within (some g.id.ns)).map Scalable.bare).Perm
  ((e.machineSets.within (some g.id.ns)).map Scalable.bare))

include ns machines sets in
theorem unsortedMachines_congr (root : g.root.bare = k.root.bare) :
    (g.unsortedMachines c).Perm (k.unsortedMachines e) := by
  rw [unsortedMachines, unsortedMachines]
  cases hg : g.root with
  | machineSet ms =>
    cases hk : k.root with
    | machineSet other =>
      rw [hg, hk] at root
      exact ownedMachines_congr ns machines (Root.machineSet.inj root)
    | machineDeployment md => simp [hg, hk, Root.bare] at root
  | machineDeployment md =>
    cases hk : k.root with
    | machineSet other => simp [hg, hk, Root.bare] at root
    | machineDeployment other =>
      rw [hg, hk] at root
      dsimp only
      rw [flatMap_bare g c (Root.machineDeployment.inj root), flatMap_bare k e rfl, ← ns]
      exact (sets.filter _).flatMap fun ms _ => ownedMachines_congr ns machines rfl

include ns machines sets in
/-- All that the Machines of a group depend on. -/
theorem machines_congr (keyed : c.machines.Keyed) (root : g.root.bare = k.root.bare) :
    g.machines c = k.machines e :=
  machines_eq_of_perm keyed (unsortedMachines_congr ns machines sets root)

end

end

/-- Beside its Machines, the members of a group depend on what is found of the Nodes. -/
theorem members_of_looks {g k : NodeGroup} {c e : Cluster}
    (byId : c.nodeByProviderId? = e.nodeByProviderId?) (byName : c.nodeByName? = e.nodeByName?)
    (machines : g.machines c = k.machines e) : g.members c = k.members e := by
  have made : c.instanceOf? = e.instanceOf? := by
    funext m
    simp only [Cluster.instanceOf?, byId, byName]
  rw [members, members, machines, made]

theorem members_congr {g k : NodeGroup} {c e : Cluster} (nodes : c.nodes = e.nodes)
    (machines : g.machines c = k.machines e) : g.members c = k.members e := by
  refine members_of_looks (funext fun id => ?_) (funext fun name => ?_) machines
  · simp only [Cluster.nodeByProviderId?, nodes]
  · simp only [Cluster.nodeByName?, nodes]

theorem summary_congr {g : NodeGroup} {c e : Cluster} (nodes : c.nodes = e.nodes)
    (machines : g.machines c = g.machines e) : g.summary c = g.summary e := by
  rw [summary, summary, members_congr nodes machines]

end NodeGroup

namespace Cluster

/-- The root above a Machine, if it has one. -/
def above (c : Cluster) (m : Machine) : Except Error (Option Root) :=
  (c.machineOwner? m).bind fun owner =>
    owner.elim (.ok none) fun ms => (c.rootOf ms).map some

theorem above_eq_some_iff {c : Cluster} {m : Machine} {r : Root} :
    c.above m = .ok (some r) ↔ c.LeadsTo m r := by
  rw [above, LeadsTo]
  cases owner : c.machineOwner? m with
  | error e => simp [Except.bind]
  | ok found =>
    cases found with
    | none => simp [Except.bind]
    | some ms => cases root : c.rootOf ms <;> simp [Except.bind, Except.map, root]

/-- The object that an identifier names, whether or not it is a root. -/
def held? (c : Cluster) (id : GroupId) : Option Root :=
  match id.kind with
  | .machineSet => (c.machineSets.get? (some id.ns) id.name).map .machineSet
  | .machineDeployment => (c.machineDeployments.get? (some id.ns) id.name).map .machineDeployment

/-- What a look says of the object that it finds. -/
def judged (c : Cluster) : Root → Except Error Lookup
  | .machineSet ms => (c.rootOf ms).bind fun root =>
    if root.isMachineSet then Directory.lookupRoot root else .ok .notScalable
  | .machineDeployment md => Directory.lookupRoot (.machineDeployment md)

end Cluster

namespace Directory

/-- The directory with the same settings over another cluster. -/
def reading (d : Directory) (c : Cluster) : Directory := { d with cluster := c }

/-- The group that a root gives to a Node: none where its bounds are wrong. -/
def groupAt (r : Root) : Except Error (Option NodeGroup) :=
  match r.group? with
  | .ok group => .ok group
  | .error e => if e.isMisconfiguration then .ok none else .error e

/-- The walk from a Node: to its Machine, if that is in scope, and on to the root above. -/
theorem groupForNode_eq (d : Directory) (n : Node) : d.groupForNode n =
    (d.cluster.machineForNode? n).bind fun found =>
      (found.filter fun m => d.settings.inScope (m.metadata.ns.getD "")).elim (.ok none) fun m =>
        (d.cluster.above m).bind fun root => root.elim (.ok none) groupAt := by
  rw [groupForNode]
  cases walked : d.cluster.machineForNode? n with
  | error e => rfl
  | ok found =>
    cases found with
    | none => rfl
    | some m =>
      by_cases visible : d.settings.inScope (m.metadata.ns.getD "") = true
      · simp only [Except.bind, Option.filter, visible, if_true, Option.elim, Cluster.above]
        cases owner : d.cluster.machineOwner? m with
        | error e => rfl
        | ok owned =>
          cases owned with
          | none => rfl
          | some ms =>
            cases above : d.cluster.rootOf ms with
            | error e => simp [Except.map, above]
            | ok root => cases grouped : root.group? <;> simp [Except.map, groupAt, above, grouped]
      · simp [Except.bind, Option.filter, visible]

/-- A look is for an object of the cluster, if the scope has its namespace. -/
theorem lookup_eq (d : Directory) (id : GroupId) : d.lookup id =
    if d.settings.inScope id.ns then (d.cluster.held? id).elim (.ok .notFound) d.cluster.judged
    else .ok .notFound := by
  rw [lookup]
  refine if_congr Iff.rfl ?_ rfl
  rw [Cluster.held?]
  cases id.kind with
  | machineSet =>
    cases d.cluster.machineSets.get? (some id.ns) id.name with
    | none => rfl
    | some ms =>
      simp only [Option.map_some, Option.elim, Cluster.judged]
      cases d.cluster.rootOf ms with
      | error e => rfl
      | ok root => cases root <;> rfl
  | machineDeployment =>
    cases d.cluster.machineDeployments.get? (some id.ns) id.name with
    | none => rfl
    | some md => rfl

end Directory
end NodeGroups
