import NodeGroups.Bounds
import NodeGroups.Correlation
import NodeGroups.GroupId
import NodeGroups.Ownership

/-!
# Node groups

A node group is a MachineSet or MachineDeployment, its root, together with the bounds of its
size. It holds the root as it was when the group was formed; its Machines and members are
read from the cluster each time they are asked for.
-/
namespace NodeGroups

inductive Root where
  | machineSet (object : MachineSet)
  | machineDeployment (object : MachineDeployment)
deriving DecidableEq, Repr

namespace Root

def kind : Root → ScalableKind
  | machineSet _ => .machineSet
  | machineDeployment _ => .machineDeployment

def metadata : Root → Metadata
  | machineSet ms => ms.metadata
  | machineDeployment md => md.metadata

def replicas : Root → Int32
  | machineSet ms => ms.replicas
  | machineDeployment md => md.replicas

def isMachineSet : Root → Bool
  | machineSet _ => true
  | machineDeployment _ => false

def id (r : Root) : Except Error GroupId := GroupId.ofMetadata r.kind r.metadata

/-- The declared bounds; a root without a name is an error before any annotation is read. -/
def bounds (r : Root) : Except Error (Option Bounds) :=
  match r.id with
  | .error e => .error e
  | .ok id => Bounds.ofAnnotations id.text (r.metadata.annotations.getD [])

end Root

/-- A member of a group: its provider ID and the name of its Node, if that is known. -/
structure Instance where
  id : String
  nodeName : Option String
deriving DecidableEq, Repr

structure NodeGroup where
  id : GroupId
  root : Root
  bounds : Bounds
deriving DecidableEq, Repr

namespace NodeGroup

/-- The group of a root with bounds taken as they are. -/
def ofRoot (root : Root) (bounds : Bounds) : Except Error NodeGroup :=
  root.id.map fun id => ⟨id, root, bounds⟩

def minSize (g : NodeGroup) : Int32 := g.bounds.min

def maxSize (g : NodeGroup) : Int32 := g.bounds.max

/-- The size that the root declares. -/
def size (g : NodeGroup) : Int32 := g.root.replicas

@[simp]
theorem size_eq (g : NodeGroup) : g.size = g.root.replicas := rfl

def describe (g : NodeGroup) : String :=
  g.id.text ++ " (min: " ++ Text.decimal32 g.minSize ++ ", max: " ++
    Text.decimal32 g.maxSize ++ ", replicas: " ++ Text.decimal32 g.size ++ ")"

/-- The Machines of the group's namespace that a MachineSet owns. -/
def ownedMachines (g : NodeGroup) (c : Cluster) (ms : MachineSet) : List Machine :=
  (c.machines.within (some g.id.ns)).filter fun m => owns ms m.metadata

/-- The Machines below the root, MachineSet by MachineSet. -/
def unsortedMachines (g : NodeGroup) (c : Cluster) : List Machine :=
  match g.root with
  | .machineSet ms => g.ownedMachines c ms
  | .machineDeployment md =>
    ((c.machineSets.within (some g.id.ns)).filter fun ms => owns md ms.metadata).flatMap
      (g.ownedMachines c)

/-- The Machines of the group by name. -/
def machines (g : NodeGroup) (c : Cluster) : List Machine :=
  (g.unsortedMachines c).mergeSort fun a b =>
    decide (a.metadata.displayName ≤ b.metadata.displayName)

end NodeGroup

namespace Cluster

/-- The member that a Machine makes: by its own provider ID if it has one, else by that of
the Node it refers to. A Machine without either is none yet. -/
def instanceOf? (c : Cluster) (m : Machine) : Option Instance :=
  match m.providerId? with
  | some id => some ⟨id, (c.nodeByProviderId? id).map fun n => n.metadata.displayName⟩
  | none =>
    match m.nodeName? with
    | none => none
    | some name =>
      match c.nodeByName? name with
      | none => none
      | some n => n.providerId?.map fun id => ⟨id, some name⟩

end Cluster

def NodeGroup.members (g : NodeGroup) (c : Cluster) : List Instance :=
  (g.machines c).filterMap c.instanceOf?

end NodeGroups
