import NodeGroups.Cluster

/-!
# Ownership

An object names its owners by kind, name and uid, never by namespace: an owner is in the
namespace of what it owns. Of several references to one kind the first counts. `owner?` goes
from an object to the cached owner that the reference means, `owns` asks of two objects at
hand whether one owns the other; both want the uid to agree, so that an object deleted and
made again under its old name owns nothing of what the old one did.
-/
namespace NodeGroups

section
variable {α : Type} [Resource α]

/-- The key, as text, under which an owner is looked up. -/
def ownerKeyText (owned : Metadata) (reference : OwnerReference) : String :=
  match filled owned.ns with
  | none => reference.name
  | some ns => ns ++ "/" ++ reference.name

/-- The cached owner, if its reference can be followed; a reference whose name makes no key
is an error. -/
def owner? (owned : Metadata) (owners : Cache α) : Except Error (Option α) :=
  match owned.ownerOfKind? (Resource.kind α) with
  | none => .ok none
  | some reference =>
    match ObjectKey.parse (ownerKeyText owned reference) with
    | .error e => .error e
    | .ok key =>
      match owners.get? key.ns? key.name with
      | none => .ok none
      | some candidate =>
        if (Resource.metadata candidate).uid = some reference.uid then .ok (some candidate)
        else .ok none

def owns (owner : α) (owned : Metadata) : Bool :=
  match owned.ownerOfKind? (Resource.kind α) with
  | none => false
  | some reference =>
    owned.ns = (Resource.metadata owner).ns &&
    (Resource.metadata owner).name = some reference.name &&
    (Resource.metadata owner).uid = some reference.uid

end

namespace Cluster

def machineOwner? (c : Cluster) (m : Machine) : Except Error (Option MachineSet) :=
  owner? m.metadata c.machineSets

def machineSetOwner? (c : Cluster) (ms : MachineSet) :
    Except Error (Option MachineDeployment) :=
  owner? ms.metadata c.machineDeployments

end Cluster
end NodeGroups
