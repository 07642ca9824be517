import NodeGroups.Cluster

/-!
# Which Machine stands for which Node

Three signals tie a Node to its Machine: a provider ID that both carry, the Node's annotation
with the Machine's key, and the Machine's reference to the Node. They are written at
different times, so each may be missing. The provider ID is followed first.
-/
namespace NodeGroups

def machineEntry : String := "cluster.x-k8s.io/machine"

def clusterNamespaceEntry : String := "cluster.x-k8s.io/cluster-namespace"

/-- The key of the Machine that a Node's annotation names. A key without a namespace takes
the one that a second annotation gives. -/
def Node.machineKey? (n : Node) : Except Error (Option ObjectKey) :=
  match filled (n.metadata.annotation? machineEntry) with
  | none => .ok none
  | some value =>
    match ObjectKey.parse value with
    | .error e => .error e
    | .ok key =>
      if key.ns = "" then
        .ok (some { key with
          ns := (n.metadata.annotation? clusterNamespaceEntry).getD "" })
      else .ok (some key)

namespace Cluster

def machineByKey? (c : Cluster) (key : ObjectKey) : Option Machine :=
  c.machines.get? key.ns? key.name

/-- The Machine under a key given as text. -/
def findMachine (c : Cluster) (key : String) : Except Error (Option Machine) :=
  (ObjectKey.parse key).map c.machineByKey?

def nodeByName? (c : Cluster) (name : String) : Option Node := c.nodes.get? none name

def nodeByProviderId? (c : Cluster) (id : String) : Option Node :=
  if id = "" then none
  else (c.nodes.within none).find? fun n => n.providerId? = some id

/-- The Machine that a Node's annotation leads to. -/
def annotatedMachine? (c : Cluster) (n : Node) : Except Error (Option Machine) :=
  match n.machineKey? with
  | .error e => .error e
  | .ok none => .ok none
  | .ok (some key) => .ok (c.machineByKey? key)

/-- The first Machine with the provider ID, else the one that the annotation of the first
Node with it leads to. -/
def machineByProviderId? (c : Cluster) (id : String) : Except Error (Option Machine) :=
  if id = "" then .ok none
  else match (c.machines.within none).find? fun m => m.providerId? = some id with
    | some m => .ok (some m)
    | none =>
      match c.nodeByProviderId? id with
      | none => .ok none
      | some n => c.annotatedMachine? n

def machineForNode? (c : Cluster) (n : Node) : Except Error (Option Machine) :=
  match n.providerId? with
  | some id => c.machineByProviderId? id
  | none => c.annotatedMachine? n

def nodeForMachine? (c : Cluster) (m : Machine) : Option Node :=
  match m.providerId? with
  | some id => c.nodeByProviderId? id
  | none => m.nodeName?.bind c.nodeByName?

end Cluster
end NodeGroups
