import NodeGroups.Json.Field
import NodeGroups.Object.Kinds

/-!
# Objects as JSON

Each kind is read from a JSON object and written as one. Fields that the types do not have
are passed over at every level. So are the fields of metadata and of a Node that nothing in
this library asks for, such as times, finalizers and the status of a Node: they are neither
checked nor kept. The machine kinds need metadata and a spec and take any `apiVersion` and
`kind`; a Node may lack both and, if it states its version and kind, must state the right
ones. Writing leaves absent fields out and keeps empty ones.
-/
namespace NodeGroups

/-- The coding of a kind: reading fails on a missing or mistyped field. -/
class Coded (α : Type) where
  ofJson? : Json → Option α
  toJson : α → Json

namespace OwnerReference

/-- An absent or null text of a reference is read as the empty one. -/
def textField? (name : String) (j : Json) : Option String :=
  (j.optional? Json.asText? name).map fun value => value.getD ""

def ofJson? (j : Json) : Option OwnerReference := do
  let _ ← j.asObject?
  return {
    apiVersion := ← textField? "apiVersion" j
    kind := ← textField? "kind" j
    name := ← textField? "name" j
    uid := ← textField? "uid" j
    controller := ← j.optional? Json.asBool? "controller"
    blockOwnerDeletion := ← j.optional? Json.asBool? "blockOwnerDeletion" }

def toJson (r : OwnerReference) : Json :=
  .object <|
    [("apiVersion", .text r.apiVersion), ("kind", .text r.kind), ("name", .text r.name),
      ("uid", .text r.uid)] ++
    Json.memberOf .bool "controller" r.controller ++
    Json.memberOf .bool "blockOwnerDeletion" r.blockOwnerDeletion

end OwnerReference

namespace Metadata

def ofJson? (j : Json) : Option Metadata := do
  let _ ← j.asObject?
  return {
    name := ← j.optional? Json.asText? "name"
    ns := ← j.optional? Json.asText? "namespace"
    uid := ← j.optional? Json.asText? "uid"
    generateName := ← j.optional? Json.asText? "generateName"
    generation := ← j.optional? Json.asInt64? "generation"
    labels := ← j.optional? Json.asStringMap? "labels"
    annotations := ← j.optional? Json.asStringMap? "annotations"
    ownerReferences :=
      ← j.optional? (Json.asListOf? OwnerReference.ofJson?) "ownerReferences" }

def toJson (m : Metadata) : Json :=
  .object <|
    Json.memberOf .text "name" m.name ++
    Json.memberOf .text "namespace" m.ns ++
    Json.memberOf .text "uid" m.uid ++
    Json.memberOf .text "generateName" m.generateName ++
    Json.memberOf (fun n => .int n.toInt) "generation" m.generation ++
    Json.memberOf Json.ofStringMap "labels" m.labels ++
    Json.memberOf Json.ofStringMap "annotations" m.annotations ++
    Json.memberOf (fun rs => .array (rs.map OwnerReference.toJson)) "ownerReferences"
      m.ownerReferences

end Metadata

namespace ObjectReference

def ofJson? (j : Json) : Option ObjectReference := do
  let _ ← j.asObject?
  return {
    apiVersion := ← j.optional? Json.asText? "apiVersion"
    fieldPath := ← j.optional? Json.asText? "fieldPath"
    kind := ← j.optional? Json.asText? "kind"
    name := ← j.optional? Json.asText? "name"
    ns := ← j.optional? Json.asText? "namespace"
    resourceVersion := ← j.optional? Json.asText? "resourceVersion"
    uid := ← j.optional? Json.asText? "uid" }

def toJson (r : ObjectReference) : Json :=
  .object <|
    Json.memberOf .text "apiVersion" r.apiVersion ++
    Json.memberOf .text "fieldPath" r.fieldPath ++
    Json.memberOf .text "kind" r.kind ++
    Json.memberOf .text "name" r.name ++
    Json.memberOf .text "namespace" r.ns ++
    Json.memberOf .text "resourceVersion" r.resourceVersion ++
    Json.memberOf .text "uid" r.uid

end ObjectReference

namespace MachineStatus

def ofJson? (j : Json) : Option MachineStatus := do
  let j ← j.asRecord? ["nodeRef", "phase"] 0
  return {
    nodeRef := ← j.optional? ObjectReference.ofJson? "nodeRef"
    phase := ← j.optional? Json.asText? "phase" }

def toJson (s : MachineStatus) : Json :=
  .object <|
    Json.memberOf ObjectReference.toJson "nodeRef" s.nodeRef ++
    Json.memberOf .text "phase" s.phase

end MachineStatus

/-- The members that every encoded object starts with. -/
def header (α : Type) [Resource α] (a : α) : List (String × Json) :=
  [("apiVersion", .text (Resource.apiVersion α)), ("kind", .text (Resource.kind α)),
    ("metadata", (Resource.metadata a).toJson)]

namespace Machine

def ofJson? (j : Json) : Option Machine := do
  let j ← j.asRecord? ["metadata", "spec", "status"] 3
  let spec ← j.required? (Json.asRecord? ["clusterName", "providerID"] 0) "spec"
  return {
    metadata := ← j.required? Metadata.ofJson? "metadata"
    clusterName := ← spec.defaulted? Json.asText? "" "clusterName"
    declaredProviderId := ← spec.optional? Json.asText? "providerID"
    status := ← j.optional? MachineStatus.ofJson? "status" }

def toJson (m : Machine) : Json :=
  .object <| header Machine m ++
    [("spec", .object <|
      ("clusterName", .text m.clusterName) ::
        Json.memberOf .text "providerID" m.declaredProviderId)] ++
    Json.memberOf MachineStatus.toJson "status" m.status

end Machine

namespace Scalable

variable {kind : ScalableKind}

def ofJson? (j : Json) : Option (Scalable kind) := do
  let j ← j.asRecord? ["metadata", "spec"] 2
  let spec ← j.required? (Json.asRecord? ["clusterName", "replicas"] 0) "spec"
  return {
    metadata := ← j.required? Metadata.ofJson? "metadata"
    clusterName := ← spec.defaulted? Json.asText? "" "clusterName"
    declared := ← spec.optional? Json.asInt32? "replicas" }

def toJson (s : Scalable kind) : Json :=
  .object <| header (Scalable kind) s ++
    [("spec", .object <|
      ("clusterName", .text s.clusterName) ::
        Json.memberOf (fun n => .int n.toInt) "replicas" s.declared)]

end Scalable

namespace Node

/-- A field that may be absent but whose value, if there is one, is fixed. -/
def states? (name value : String) (j : Json) : Option Unit :=
  match j.member? name with
  | none => some ()
  | some stated => if stated.asText? = some value then some () else none

def specProviderId? (spec : Json) : Option (Option String) := do
  let _ ← spec.asObject?
  spec.optional? Json.asText? "providerID"

def ofJson? (j : Json) : Option Node := do
  let _ ← j.asObject?
  states? "apiVersion" "v1" j
  states? "kind" "Node" j
  return {
    metadata := (← j.optional? Metadata.ofJson? "metadata").getD Metadata.empty
    declaredProviderId := (← j.optional? specProviderId? "spec").join }

def toJson (n : Node) : Json :=
  .object <| header Node n ++
    [("spec", .object (Json.memberOf .text "providerID" n.declaredProviderId))]

end Node

instance : Coded Node := ⟨Node.ofJson?, Node.toJson⟩

instance : Coded Machine := ⟨Machine.ofJson?, Machine.toJson⟩

instance (kind : ScalableKind) : Coded (Scalable kind) := ⟨Scalable.ofJson?, Scalable.toJson⟩

end NodeGroups
