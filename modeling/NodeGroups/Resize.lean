import NodeGroups.Group

/-!
# Resizing a node group

A resize is checked against the group's bounds, and when it lowers the size also against the
members that are there. What passes is one request, the one write that a scaler is asked for;
what does not pass asks for nothing. Sizes are words of 32 bits and their sum is never formed
where it does not fit.
-/
namespace NodeGroups

/-- The wish that a root declare a replica count. -/
structure Resize where
  group : GroupId
  replicas : Int32
deriving DecidableEq, Repr

/-- Why a resize is refused. -/
inductive ResizeFault where
  | outsideBounds (size : Int32) (bounds : Bounds)
  | increaseNotPositive (delta : Int32)
  | decreaseNotNegative (delta : Int32)
  | overflow (delta : Int32)
  | aboveMax (target max : Int32)
  | belowMembers (target : Int32) (members : Nat)
deriving DecidableEq, Repr

def ResizeFault.message : ResizeFault → String
  | .outsideBounds n bounds =>
    "size " ++ Text.decimal32 n ++ " outside bounds [" ++ Text.decimal32 bounds.min ++ ", " ++
      Text.decimal32 bounds.max ++ "]"
  | .increaseNotPositive delta =>
    "size increase must be positive, got " ++ Text.decimal32 delta
  | .decreaseNotNegative delta =>
    "size decrease must be negative, got " ++ Text.decimal32 delta
  | .overflow delta => "size delta " ++ Text.decimal32 delta ++ " overflows"
  | .aboveMax target max =>
    "size increase too large: desired " ++ Text.decimal32 target ++ " exceeds max " ++
      Text.decimal32 max
  | .belowMembers target members =>
    "attempt to delete existing nodes: target " ++ Text.decimal32 target ++ " below " ++
      Text.decimal members ++ " current members"

/-- The sum, if it is a word of 32 bits. -/
def shifted? (size delta : Int32) : Option Int32 :=
  let sum := size.toInt + delta.toInt
  if Int32.minValue.toInt ≤ sum ∧ sum ≤ Int32.maxValue.toInt then some (Int32.ofInt sum)
  else none

namespace NodeGroup

def setSize (g : NodeGroup) (n : Int32) : Except ResizeFault Resize :=
  if g.bounds.contains n then .ok ⟨g.id, n⟩ else .error (.outsideBounds n g.bounds)

def increaseSize (g : NodeGroup) (delta : Int32) : Except ResizeFault Resize :=
  if delta ≤ 0 then .error (.increaseNotPositive delta)
  else match shifted? g.size delta with
    | none => .error (.overflow delta)
    | some target =>
      if g.maxSize < target then .error (.aboveMax target g.maxSize) else g.setSize target

/-- Lowers the wanted size without giving up a member. -/
def decreaseTargetSize (g : NodeGroup) (c : Cluster) (delta : Int32) :
    Except ResizeFault Resize :=
  if 0 ≤ delta then .error (.decreaseNotNegative delta)
  else match shifted? g.size delta with
    | none => .error (.overflow delta)
    | some target =>
      let members := (g.members c).length
      if target.toInt < members then .error (.belowMembers target members)
      else g.setSize target

/-- The error of a refused resize names the group. -/
def refusal (g : NodeGroup) (fault : ResizeFault) : Error := .scale g.id.text fault.message

end NodeGroup

/-- What carries a resize out: its result, and the state it leaves behind. -/
abbrev Scaler (σ : Type) := Resize → σ → Except Error Unit × σ

/-- Hands an accepted resize of a group to the scaler; a refused one leaves all as it was. -/
def NodeGroup.perform {σ : Type} (g : NodeGroup) (scaler : Scaler σ)
    (decision : Except ResizeFault Resize) (state : σ) : Except Error Unit × σ :=
  match decision with
  | .error fault => (.error (g.refusal fault), state)
  | .ok resize => scaler resize state

/-- The scalable object with another replica count. -/
def Scalable.withReplicas {kind : ScalableKind} (s : Scalable kind) (n : Int32) :
    Scalable kind :=
  { s with declared := some n }

namespace Cluster

def resizeMissing (id : GroupId) : Error := .internal "scale" (id.text ++ " not found")

/-- Declares the replica count on the cached root of a group and changes nothing else. -/
def resized (c : Cluster) (r : Resize) : Except Error Cluster :=
  match r.group.kind with
  | .machineSet =>
    match c.machineSets.get? (filled (some r.group.ns)) r.group.name with
    | none => .error (resizeMissing r.group)
    | some ms =>
      (c.machineSets.apply (ms.withReplicas r.replicas)).map fun sets =>
        { c with machineSets := sets }
  | .machineDeployment =>
    match c.machineDeployments.get? (filled (some r.group.ns)) r.group.name with
    | none => .error (resizeMissing r.group)
    | some md =>
      (c.machineDeployments.apply (md.withReplicas r.replicas)).map fun deployments =>
        { c with machineDeployments := deployments }

/-- The scaler that writes to the cached objects themselves. -/
def scaler : Scaler Cluster := fun r c =>
  match c.resized r with
  | .error e => (.error e, c)
  | .ok resized => (.ok (), resized)

end Cluster
end NodeGroups
