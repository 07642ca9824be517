import NodeGroups.Proofs.Changes
import NodeGroups.Proofs.Dependence
import NodeGroups.Proofs.Matching
import NodeGroups.Proofs.Partition

/-!
# A group that is held while the cluster changes

A group keeps its root as that was when the group was formed, and reads its Machines anew each
time. What it reads depends on the root's kind, namespace, name and uid alone (`Root.Alike`): so it
goes on to have the Machines of the object under its identifier as long as that has the uid of
the root, whatever else is written on it. The Machines that a root claims name it by its uid, at
the first owner or at the second, and an object of another uid under the same name claims none of
them. Nothing is asked here of what is applied later.
-/
namespace NodeGroups

namespace Root

/-- What owner references know of a root is the same of both. -/
structure Alike (r s : Root) : Prop where
  kind : r.kind = s.kind
  ns : r.metadata.ns = s.metadata.ns
  name : r.metadata.name = s.metadata.name
  uid : r.metadata.uid = s.metadata.uid

/-- Objects of one kind under one key, in a namespace, are alike if they have one uid. -/
theorem alike_of_id {r s : Root} {id : GroupId} (hr : r.id = .ok id) (hs : s.id = .ok id)
    (filled : id.ns ≠ "") (uid : r.metadata.uid = s.metadata.uid) : r.Alike s := by
  obtain ⟨kindr, keyr⟩ := id_eq_ok_iff.mp hr
  obtain ⟨kinds, keys⟩ := id_eq_ok_iff.mp hs
  obtain ⟨nsr, namer, -⟩ := Metadata.key_eq_ok_iff.mp keyr
  obtain ⟨nss, names, -⟩ := Metadata.key_eq_ok_iff.mp keys
  refine ⟨kindr.trans kinds.symm, ?_, namer.trans names.symm, uid⟩
  rw [eq_some_of_getD nsr filled, eq_some_of_getD nss filled]

/-- The root owns the Machine, or a cached MachineSet that does. -/
def Claims (r : Root) (c : Cluster) (m : Machine) : Prop :=
  match r with
  | .machineSet ms => owns ms m.metadata = true
  | .machineDeployment md =>
    ∃ ms ∈ c.machineSets.objects, owns md ms.metadata = true ∧ owns ms m.metadata = true

/-- A Machine is claimed under one uid. -/
theorem Claims.uid_eq {r s : Root} {c : Cluster} (keyed : c.machineSets.Keyed)
    (kind : r.kind = s.kind) {m : Machine} (hr : r.Claims c m) (hs : s.Claims c m) :
    r.metadata.uid = s.metadata.uid := by
  cases r with
  | machineSet ms =>
    cases s with
    | machineSet other => exact uid_eq_of_owns hr hs
    | machineDeployment other => cases kind
  | machineDeployment md =>
    cases s with
    | machineSet other => cases kind
    | machineDeployment other =>
      -- The Machine has one MachineSet, and that has one uid for its owner.
      obtain ⟨ms, there, above, below⟩ := hr
      obtain ⟨also, cached, higher, lower⟩ := hs
      cases eq_of_owns keyed there cached below lower
      exact uid_eq_of_owns above higher

end Root

namespace NodeGroup

theorem claims_of_mem_machines {g : NodeGroup} {c : Cluster} {m : Machine}
    (h : m ∈ g.machines c) : g.root.Claims c m := by
  rw [machines, List.mem_mergeSort, unsortedMachines] at h
  rw [Root.Claims.eq_def]
  cases hr : g.root with
  | machineSet ms =>
    rw [hr] at h
    exact (List.mem_filter.mp h).2
  | machineDeployment md =>
    rw [hr] at h
    obtain ⟨ms, hms, owned⟩ := List.mem_flatMap.mp h
    obtain ⟨listed, above⟩ := List.mem_filter.mp hms
    exact ⟨ms, (Cache.mem_within_iff.mp listed).1, above, (List.mem_filter.mp owned).2⟩

/-- Groups with alike roots read the same Machines. -/
theorem machines_of_alike {g k : NodeGroup} (ns : g.id.ns = k.id.ns) (alike : g.root.Alike k.root)
    (c : Cluster) : g.machines c = k.machines c := by
  have owned {ms other : MachineSet} (same : owns ms = owns other) :
      g.ownedMachines c ms = k.ownedMachines c other := by
    rw [ownedMachines, ownedMachines, ns, same]
  have found : g.unsortedMachines c = k.unsortedMachines c := by
    obtain ⟨kind, place, name, uid⟩ := alike
    rw [unsortedMachines, unsortedMachines]
    cases hg : g.root with
    | machineSet ms =>
      cases hk : k.root with
      | machineSet other =>
        rw [hg, hk] at place name uid
        exact owned (owns_congr place name uid)
      | machineDeployment other =>
        rw [hg, hk] at kind
        cases kind
    | machineDeployment md =>
      cases hk : k.root with
      | machineSet other =>
        rw [hg, hk] at kind
        cases kind
      | machineDeployment other =>
        rw [hg, hk] at place name uid
        have same : owns md = owns other := owns_congr place name uid
        have below : g.ownedMachines c = k.ownedMachines c := funext fun ms => owned rfl
        dsimp only
        rw [ns, same, below]
  rw [machines, machines, found]

end NodeGroup

namespace Cluster

/-- The object of the root is cached. -/
def Caches (c : Cluster) : Root → Prop
  | .machineSet ms => ms ∈ c.machineSets.objects
  | .machineDeployment md => md ∈ c.machineDeployments.objects

theorem IsRoot.caches {c : Cluster} {r : Root} (h : c.IsRoot r) : c.Caches r := by
  cases r with
  | machineSet ms => exact h.1
  | machineDeployment md => exact h

/-- What is held under an identifier is the cached object that has it. -/
theorem held?_eq_some_iff {c : Cluster} (reached : c.Reached) (memory : c.InMemory) {id : GroupId}
    {r : Root} : c.held? id = some r ↔ c.Caches r ∧ r.id = .ok id := by
  have sets {ms : MachineSet} : c.machineSets.get? (some id.ns) id.name = some ms ↔
      ms ∈ c.machineSets.objects ∧ ms.metadata.key = .ok ⟨id.ns, id.name⟩ :=
    reached.machineSets.keyed.get?_folding memory.machineSets
  have deployments {md : MachineDeployment} :
      c.machineDeployments.get? (some id.ns) id.name = some md ↔
        md ∈ c.machineDeployments.objects ∧ md.metadata.key = .ok ⟨id.ns, id.name⟩ :=
    reached.machineDeployments.keyed.get?_folding memory.machineDeployments
  rw [held?, Root.id_eq_ok_iff]
  cases hk : id.kind with
  | machineSet =>
    cases r with
    | machineSet ms => simp [Caches, Root.kind, Root.metadata, sets]
    | machineDeployment md => simp [Root.kind]
  | machineDeployment =>
    cases r with
    | machineSet ms => simp [Root.kind]
    | machineDeployment md => simp [Caches, Root.kind, Root.metadata, deployments]

end Cluster

namespace Directory

/-- The directory gives the group out, in a listing, for an identifier or for a Node. -/
def Gives (d : Directory) (g : NodeGroup) : Prop :=
  d.Returns g ∨ ∃ n, d.groupForNode n = .ok (some g)

theorem Gives.isRoot {d : Directory} {g : NodeGroup} (h : d.Gives g) :
    d.cluster.IsRoot g.root ∧ g.root.id = .ok g.id := by
  rcases h with returned | ⟨n, walked⟩
  · exact returned.isRoot
  · obtain ⟨m, -, -, up, grouped⟩ := groupForNode_eq_some_iff.mp walked
    exact ⟨up.isRoot, (Root.id_of_group? grouped).2⟩

/-- A group that was given out is that of the object under its identifier at the time, and its
identifier and sizes are shown for ever as they were then. Its Machines are those of a group formed
anew of what is under its identifier later, as long as that has the uid of its root; with another
uid the two have no Machine in common, then and after any more changes. -/
theorem held_group_keeps_identity (d : Directory) (reached : d.cluster.Reached)
    (memory : d.cluster.InMemory) (placed : d.cluster.Placed) (g : NodeGroup) (given : d.Gives g) :
    d.cluster.held? g.id = some g.root ∧
    ∀ changes : List ClusterChange,
      ((g.summary (d.cluster.after changes)).id = (g.summary d.cluster).id ∧
        (g.summary (d.cluster.after changes)).minSize = (g.summary d.cluster).minSize ∧
        (g.summary (d.cluster.after changes)).maxSize = (g.summary d.cluster).maxSize ∧
        (g.summary (d.cluster.after changes)).size = (g.summary d.cluster).size) ∧
      ∀ r, (d.cluster.after changes).held? g.id = some r → ∀ bounds : Bounds, ∃ k,
        NodeGroup.ofRoot r bounds = .ok k ∧ k.id = g.id ∧ ∀ more : List ClusterChange,
          (r.metadata.uid = g.root.metadata.uid →
            g.machines (d.cluster.after (changes ++ more)) =
              k.machines (d.cluster.after (changes ++ more))) ∧
          (r.metadata.uid ≠ g.root.metadata.uid →
            ∀ m ∈ g.machines (d.cluster.after (changes ++ more)),
              m ∉ k.machines (d.cluster.after (changes ++ more))) := by
  obtain ⟨root, hid⟩ := given.isRoot
  refine ⟨(Cluster.held?_eq_some_iff reached memory).mpr ⟨root.caches, hid⟩, fun changes =>
    ⟨⟨rfl, rfl, rfl, rfl⟩, fun r held bounds => ?_⟩⟩
  have later := (Cluster.held?_eq_some_iff (reached.after changes) (memory.after changes)).mp held
  let k : NodeGroup := ⟨g.id, r, bounds⟩
  refine ⟨k, Root.ofRoot_of_id later.2 bounds, rfl, fun more =>
    ⟨fun uid => ?_, fun uid m hg hk => ?_⟩⟩
  · have filled : g.id.ns ≠ "" := by
      obtain ⟨ns, hns, segment⟩ := (root.placed placed).ns
      cases hns.symm.trans (root.ns_eq placed hid)
      exact segment.1
    have alike : g.root.Alike k.root := Root.alike_of_id hid later.2 filled uid.symm
    have ns : g.id.ns = k.id.ns := rfl
    exact NodeGroup.machines_of_alike ns alike _
  · have keyed := (reached.after (changes ++ more)).machineSets.keyed
    have kind : r.kind = g.root.kind :=
      (Root.id_eq_ok_iff.mp later.2).1.trans (Root.id_eq_ok_iff.mp hid).1.symm
    have claimed : r.Claims _ m := NodeGroup.claims_of_mem_machines hk
    exact uid (claimed.uid_eq keyed kind (NodeGroup.claims_of_mem_machines hg))

end Directory

namespace Lab

/-- The deployment `fleet` with other sizes, written on the same object. -/
def tunedFleet : MachineDeployment :=
  { fleet with
    metadata := { fleet.metadata with
      annotations := some [(minSizeEntry, "2"), (maxSizeEntry, "9")] }
    declared := some 4 }

/-- A deployment that was made again under the name, with a MachineSet and a Machine of its own. -/
def nextFleet : MachineDeployment :=
  { fleet with metadata := { fleet.metadata with uid := some "u10" } }

def nextPart : MachineSet where
  metadata := metadata "part-2" "u11" [owner "MachineDeployment" "fleet" "u10"] []
  clusterName := "lab"
  declared := some 1

def nextMachine : Machine where
  metadata := metadata "part-b" "u12" [owner "MachineSet" "part-2" "u11"] []
  clusterName := "lab"
  declaredProviderId := some "id-c"
  status := none

def nextGroup : NodeGroup :=
  ⟨⟨.machineDeployment, "lab", "fleet"⟩, .machineDeployment nextFleet, ⟨0, 5⟩⟩

def tuning : List ClusterChange := [.machineDeployments (.apply tunedFleet)]

def remaking : List ClusterChange :=
  [.machineDeployments (.apply tunedFleet), .machineDeployments (.delete (some "lab") "fleet"),
    .machineDeployments (.apply nextFleet)]

def filling : List ClusterChange := [.machineSets (.apply nextPart), .machines (.apply nextMachine)]

/-- The group of `fleet` has its Machine under other sizes. Once the deployment is made again, the
old group and the new one have a Machine each. -/
theorem fleet_held : directory.cluster.Reached ∧ directory.cluster.InMemory ∧
    directory.cluster.Placed ∧ directory.Gives fleetGroup ∧
    (directory.cluster.after tuning).held? fleetGroup.id =
      some (.machineDeployment tunedFleet) ∧
    (∃ k, NodeGroup.ofRoot (.machineDeployment tunedFleet) ⟨2, 9⟩ = .ok k ∧
      k.machines (directory.cluster.after tuning) = [partMachine]) ∧
    (directory.cluster.after remaking).held? fleetGroup.id =
      some (.machineDeployment nextFleet) ∧
    NodeGroup.ofRoot (.machineDeployment nextFleet) ⟨0, 5⟩ = .ok nextGroup ∧
    nextGroup.machines (directory.cluster.after (remaking ++ filling)) = [nextMachine] ∧
    partMachine ∈ fleetGroup.machines (directory.cluster.after (remaking ++ filling)) ∧
    partMachine ∉ nextGroup.machines (directory.cluster.after (remaking ++ filling)) := by
  have given : directory.Gives fleetGroup := Or.inl (Or.inl ⟨_, groups_eq, by decide⟩)
  obtain ⟨-, kept⟩ := Directory.held_group_keeps_identity directory reached inMemory placed
    fleetGroup given
  have tuned : (directory.cluster.after tuning).held? fleetGroup.id =
      some (.machineDeployment tunedFleet) := rfl
  have remade : (directory.cluster.after remaking).held? fleetGroup.id =
      some (.machineDeployment nextFleet) := rfl
  have next : NodeGroup.ofRoot (.machineDeployment nextFleet) ⟨0, 5⟩ = .ok nextGroup := rfl
  obtain ⟨k, formed, -, same⟩ := (kept tuning).2 _ tuned ⟨2, 9⟩
  obtain ⟨l, made, -, apart⟩ := (kept remaking).2 _ remade ⟨0, 5⟩
  cases next.symm.trans made
  have old : fleetGroup.machines (directory.cluster.after tuning) = [partMachine] :=
    NodeGroup.machines_of_ascending rfl (by decide)
  have read : fleetGroup.machines (directory.cluster.after tuning) =
      k.machines (directory.cluster.after tuning) := (same []).1 rfl
  have fresh : nextGroup.machines (directory.cluster.after (remaking ++ filling)) =
      [nextMachine] := NodeGroup.machines_of_ascending rfl (by decide)
  have still : fleetGroup.machines (directory.cluster.after (remaking ++ filling)) =
      [partMachine] := NodeGroup.machines_of_ascending rfl (by decide)
  have there : partMachine ∈ fleetGroup.machines (directory.cluster.after (remaking ++ filling)) :=
    still ▸ List.mem_cons_self
  exact ⟨reached, inMemory, placed, given, tuned, ⟨k, formed, read.symm.trans old⟩, remade, next,
    fresh, there, (apart filling).2 (by decide) partMachine there⟩

end Lab
end NodeGroups
