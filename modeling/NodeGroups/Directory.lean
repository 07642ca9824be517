import NodeGroups.Group
import NodeGroups.Settings

/-!
# The directory of node groups

A MachineSet whose MachineDeployment can be found is represented by it; every other
MachineSet and every MachineDeployment is a candidate of its own. A candidate is a node group
when it declares bounds with room between them and at least one replica. The directory lists
all groups, looks one up by its identifier and finds the group of a Node, each within the
namespace of its settings. One misconfigured candidate fails the listing, and its own lookup,
but it is passed over when the question is about a Node.
-/
namespace NodeGroups

namespace Cluster

/-- What a MachineSet is represented by: the MachineDeployment that owns it, else itself. -/
def rootOf (c : Cluster) (ms : MachineSet) : Except Error Root :=
  match c.machineSetOwner? ms with
  | .error e => .error e
  | .ok none => .ok (.machineSet ms)
  | .ok (some md) => .ok (.machineDeployment md)

end Cluster

/-- The group of a candidate, if it is one. -/
def Root.group? (r : Root) : Except Error (Option NodeGroup) :=
  match r.bounds with
  | .error e => .error e
  | .ok none => .ok none
  | .ok (some bounds) =>
    if bounds.hasRoom ∧ 0 < r.replicas then (NodeGroup.ofRoot r bounds).map some
    else .ok none

/-- The results for all elements, or the first error. -/
def each {ε α β : Type} (f : α → Except ε β) : List α → Except ε (List β)
  | [] => .ok []
  | a :: rest =>
    match f a with
    | .error e => .error e
    | .ok b => (each f rest).map fun more => b :: more

/-- What is under an identifier. -/
inductive Lookup where
  | notFound
  | notScalable
  | scalable (group : NodeGroup)
deriving DecidableEq, Repr

structure Directory where
  cluster : Cluster
  settings : Settings

namespace Directory

/-- The MachineSets that stand for themselves, then the MachineDeployments. -/
def candidates (d : Directory) : Except Error (List Root) :=
  match each d.cluster.rootOf (d.cluster.machineSets.within d.settings.ns) with
  | .error e => .error e
  | .ok roots =>
    .ok (roots.filter Root.isMachineSet ++
      (d.cluster.machineDeployments.within d.settings.ns).map .machineDeployment)

/-- All node groups in the order of their identifiers. -/
def groups (d : Directory) : Except Error (List NodeGroup) :=
  match d.candidates with
  | .error e => .error e
  | .ok roots =>
    (each Root.group? roots).map fun found =>
      (found.filterMap fun group => group).mergeSort fun a b => a.id.le b.id

/-- The group of a Node: of the root of the MachineSet that owns the Node's Machine. Wrong
bounds there make the Node one without a group. -/
def groupForNode (d : Directory) (n : Node) : Except Error (Option NodeGroup) :=
  match d.cluster.machineForNode? n with
  | .error e => .error e
  | .ok none => .ok none
  | .ok (some m) =>
    if d.settings.inScope (m.metadata.ns.getD "") then
      match d.cluster.machineOwner? m with
      | .error e => .error e
      | .ok none => .ok none
      | .ok (some ms) =>
        match d.cluster.rootOf ms with
        | .error e => .error e
        | .ok root =>
          match root.group? with
          | .ok group => .ok group
          | .error e => if e.isMisconfiguration then .ok none else .error e
    else .ok none

/-- What a root that has been found says about its identifier. -/
def lookupRoot (r : Root) : Except Error Lookup :=
  r.group?.map fun group =>
    match group with
    | none => .notScalable
    | some g => .scalable g

def lookup (d : Directory) (id : GroupId) : Except Error Lookup :=
  if d.settings.inScope id.ns then
    match id.kind with
    | .machineSet =>
      match d.cluster.machineSets.get? (some id.ns) id.name with
      | none => .ok .notFound
      | some ms =>
        match d.cluster.rootOf ms with
        | .error e => .error e
        | .ok (.machineDeployment _) => .ok .notScalable
        | .ok (.machineSet own) => lookupRoot (.machineSet own)
    | .machineDeployment =>
      match d.cluster.machineDeployments.get? (some id.ns) id.name with
      | none => .ok .notFound
      | some md => lookupRoot (.machineDeployment md)
  else .ok .notFound

def text (d : Directory) : String :=
  let cache := "ClusterCache \x7b .. \x7d"
  "NodeGroupDirectory \x7b cache: " ++ cache ++ ", config: " ++ d.settings.text ++
    ", owners: OwnerResolver \x7b cache: " ++ cache ++
    " \x7d, correlator: MachineCorrelator \x7b cache: " ++ cache ++ " \x7d \x7d"

end Directory
end NodeGroups
