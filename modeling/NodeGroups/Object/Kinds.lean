import NodeGroups.Object.Metadata

/-!
# Kinds of object

A MachineDeployment owns MachineSets, a MachineSet owns Machines, and a Machine stands for
one Node. The two kinds that declare a replica count have the same shape and differ in their
kind alone. A Machine is tied to its Node by a provider ID that both carry and by a reference
in its status; either may be missing, and an empty text says no more than an absent one.
-/
namespace NodeGroups

/-- The kinds of object whose replica count can be set. -/
inductive ScalableKind where
  | machineSet
  | machineDeployment
deriving DecidableEq, Repr

def ScalableKind.text : ScalableKind → String
  | .machineSet => "MachineSet"
  | .machineDeployment => "MachineDeployment"

def ScalableKind.ofText? (s : String) : Option ScalableKind :=
  if s = "MachineSet" then some .machineSet
  else if s = "MachineDeployment" then some .machineDeployment
  else none

theorem ScalableKind.ofText?_eq_some_iff {s : String} {kind : ScalableKind} :
    ofText? s = some kind ↔ s = kind.text := by
  constructor
  · intro h
    rw [ofText?] at h
    split at h
    · next set =>
      cases h
      exact set
    · split at h
      · next deployment =>
        cases h
        exact deployment
      · cases h
  · rintro rfl
    cases kind <;> rfl

structure Scalable (kind : ScalableKind) where
  metadata : Metadata
  clusterName : String
  declared : Option Int32
deriving DecidableEq, Repr

abbrev MachineSet := Scalable .machineSet

abbrev MachineDeployment := Scalable .machineDeployment

/-- The declared replica count, zero when there is none. -/
def Scalable.replicas {kind : ScalableKind} (s : Scalable kind) : Int32 := s.declared.getD 0

/-- A reference to an object by some of its coordinates. -/
structure ObjectReference where
  apiVersion : Option String
  fieldPath : Option String
  kind : Option String
  name : Option String
  ns : Option String
  resourceVersion : Option String
  uid : Option String
deriving DecidableEq, Repr

structure MachineStatus where
  nodeRef : Option ObjectReference
  phase : Option String
deriving DecidableEq, Repr

structure Machine where
  metadata : Metadata
  clusterName : String
  declaredProviderId : Option String
  status : Option MachineStatus
deriving DecidableEq, Repr

structure Node where
  metadata : Metadata
  declaredProviderId : Option String
deriving DecidableEq, Repr

/-- A text that is there and not empty. -/
def filled : Option String → Option String
  | none => none
  | some s => if s = "" then none else some s

def Machine.providerId? (m : Machine) : Option String := filled m.declaredProviderId

/-- The name of the Node that the status refers to, whatever else the reference says. -/
def Machine.nodeName? (m : Machine) : Option String :=
  filled (m.status.bind fun status => status.nodeRef.bind fun reference => reference.name)

def Node.providerId? (n : Node) : Option String := filled n.declaredProviderId

/-- What is common to all kinds. -/
class Resource (α : Type) where
  kind : String
  plural : String
  apiVersion : String
  metadata : α → Metadata

/-- The group of the machine kinds. -/
def apiGroup : String := "cluster.x-k8s.io"

def machineApiVersion : String := apiGroup ++ "/v1beta1"

instance : Resource Node where
  kind := "Node"
  plural := "nodes"
  apiVersion := "v1"
  metadata := Node.metadata

instance : Resource Machine where
  kind := "Machine"
  plural := "machines"
  apiVersion := machineApiVersion
  metadata := Machine.metadata

def ScalableKind.plural : ScalableKind → String
  | .machineSet => "machinesets"
  | .machineDeployment => "machinedeployments"

instance (kind : ScalableKind) : Resource (Scalable kind) where
  kind := kind.text
  plural := kind.plural
  apiVersion := machineApiVersion
  metadata := Scalable.metadata

end NodeGroups
