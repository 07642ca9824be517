import NodeGroups.Proofs.Dependence

/-!
# Caches that are read alike

A question reads the caches by listings and by looks, and looks in a namespace that is not
empty or outside all of them. Roots are found by looks alone (`Cluster.OwnersAlike`). Where also
the listings are the same, all answers are (`Cluster.ReadAlike`), however the two clusters keep
their objects.
-/
namespace NodeGroups

theorem ObjectKey.ns?_ne (key : ObjectKey) : key.ns? ≠ some "" := by
  rw [ns?]
  split
  · simp
  · next there => simpa using there

namespace Cache

variable {α : Type} [Resource α] {c e : Cache α}

/-- A look finds the same in both, in a namespace that is not empty and outside all. -/
def LooksAlike (c e : Cache α) : Prop :=
  ∀ ns name, ns ≠ some "" → c.get? ns name = e.get? ns name

theorem LooksAlike.owner? (h : LooksAlike c e) (owned : Metadata) :
    NodeGroups.owner? owned c = NodeGroups.owner? owned e := by
  rw [owner?_eq, owner?_eq]
  cases owned.ownerKey? (Resource.kind α) with
  | error failed => rfl
  | ok asked =>
    cases asked with
    | none => rfl
    | some look => simp only [Except.map, Option.bind_some, h _ look.1.name look.1.ns?_ne]

/-- Both have the same objects in the same order, and looks find the same ones. -/
structure ReadAlike (c e : Cache α) : Prop where
  objects : c.objects = e.objects
  looks : LooksAlike c e

theorem within_of_objects (h : c.objects = e.objects) (ns : Option String) :
    c.within ns = e.within ns := by
  rw [within, within, list, list, h]

end Cache

namespace Cluster

/-- Looks for owners find the same in both. -/
structure OwnersAlike (c e : Cluster) : Prop where
  machineSets : c.machineSets.LooksAlike e.machineSets
  machineDeployments : c.machineDeployments.LooksAlike e.machineDeployments

namespace OwnersAlike

variable {c e : Cluster} (h : OwnersAlike c e)

include h

theorem rootOf : c.rootOf = e.rootOf := by
  funext ms
  have owner : c.machineSetOwner? ms = e.machineSetOwner? ms :=
    h.machineDeployments.owner? ms.metadata
  rw [Cluster.rootOf, Cluster.rootOf, owner]

theorem above : c.above = e.above := by
  funext m
  have owner : c.machineOwner? m = e.machineOwner? m := h.machineSets.owner? m.metadata
  rw [Cluster.above, Cluster.above, owner, h.rootOf]

theorem judged : c.judged = e.judged := by
  funext r
  cases r with
  | machineSet ms => rw [Cluster.judged, Cluster.judged, h.rootOf]
  | machineDeployment md => rfl

theorem held? {id : GroupId} (filled : id.ns ≠ "") : c.held? id = e.held? id := by
  have asks : some id.ns ≠ some "" := by simpa using filled
  rw [Cluster.held?, Cluster.held?, h.machineSets _ id.name asks,
    h.machineDeployments _ id.name asks]

end OwnersAlike

/-- All that is read of one cluster is read of the other. Nodes are looked for outside all
namespaces only. -/
structure ReadAlike (c e : Cluster) : Prop where
  nodes : c.nodes.objects = e.nodes.objects
  nodeLooks : ∀ name, c.nodes.get? none name = e.nodes.get? none name
  machines : c.machines.ReadAlike e.machines
  machineSets : c.machineSets.ReadAlike e.machineSets
  machineDeployments : c.machineDeployments.ReadAlike e.machineDeployments

namespace ReadAlike

variable {c e : Cluster} (h : ReadAlike c e)

include h

theorem owners : OwnersAlike c e := ⟨h.machineSets.looks, h.machineDeployments.looks⟩

theorem nodeByProviderId? : c.nodeByProviderId? = e.nodeByProviderId? := by
  funext id
  rw [Cluster.nodeByProviderId?, Cluster.nodeByProviderId?, Cache.within_of_objects h.nodes]

theorem nodeByName? : c.nodeByName? = e.nodeByName? := funext h.nodeLooks

theorem annotatedMachine? : c.annotatedMachine? = e.annotatedMachine? := by
  funext n
  have found : c.machineByKey? = e.machineByKey? :=
    funext fun key => h.machines.looks _ key.name key.ns?_ne
  rw [Cluster.annotatedMachine?, Cluster.annotatedMachine?, found]

theorem machineForNode? : c.machineForNode? = e.machineForNode? := by
  funext n
  have byId : c.machineByProviderId? = e.machineByProviderId? := by
    funext id
    rw [Cluster.machineByProviderId?, Cluster.machineByProviderId?, h.nodeByProviderId?,
      h.annotatedMachine?, Cache.within_of_objects h.machines.objects]
  rw [Cluster.machineForNode?, Cluster.machineForNode?, byId, h.annotatedMachine?]

theorem machines_eq (g : NodeGroup) : g.machines c = g.machines e := by
  have owned : g.ownedMachines c = g.ownedMachines e := by
    funext ms
    rw [NodeGroup.ownedMachines, NodeGroup.ownedMachines,
      Cache.within_of_objects h.machines.objects]
  rw [NodeGroup.machines, NodeGroup.machines, NodeGroup.unsortedMachines,
    NodeGroup.unsortedMachines, owned, Cache.within_of_objects h.machineSets.objects]

theorem summary_eq (g : NodeGroup) : g.summary c = g.summary e := by
  rw [NodeGroup.summary, NodeGroup.summary,
    NodeGroup.members_of_looks h.nodeByProviderId? h.nodeByName? (h.machines_eq g)]

end ReadAlike

end Cluster

namespace Directory

variable {d : Directory} {e : Cluster} (h : d.cluster.ReadAlike e)

include h

theorem groups_of_readAlike : d.groups = (d.reading e).groups := by
  have candidates : d.candidates = (d.reading e).candidates := by
    simp only [Directory.candidates, reading, h.owners.rootOf,
      Cache.within_of_objects h.machineSets.objects,
      Cache.within_of_objects h.machineDeployments.objects]
  rw [groups, groups, candidates]

theorem lookup_of_readAlike {id : GroupId} (filled : id.ns ≠ "") :
    d.lookup id = (d.reading e).lookup id := by
  rw [lookup_eq, lookup_eq, reading, h.owners.held? filled, h.owners.judged]

theorem groupForNode_of_readAlike (n : Node) :
    d.groupForNode n = (d.reading e).groupForNode n := by
  rw [groupForNode_eq, groupForNode_eq, reading, h.machineForNode?, h.owners.above]

end Directory
end NodeGroups
