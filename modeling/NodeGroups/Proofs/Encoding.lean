import NodeGroups.Object.Coding

/-!
# What is written is read back

Every field of an object is written under a name of its own and is left out where it is absent, so
that what is found under a name is what was written for the field (`Json.Reads`). Nothing that is
there is written as null, which would be read as absent. By this the parts of an object are read
back one inside the other, up to the objects themselves.
-/
namespace NodeGroups

namespace Json

section
variable {α : Type} {read : Json → Option α} {write : α → Json} {name key : String}

@[simp]
theorem member?_nil : (object []).member? key = none := rfl

@[simp]
theorem member?_cons {value : Json} {rest : List (String × Json)} :
    (object ((name, value) :: rest)).member? key =
      if key = name then some value else (object rest).member? key :=
  lookup_cons_eq_ite key name value rest

@[simp]
theorem member?_append {before after : List (String × Json)} :
    (object (before ++ after)).member? key =
      ((object before).member? key).or ((object after).member? key) :=
  List.lookup_append

@[simp]
theorem member?_memberOf {field : Option α} :
    (object (memberOf write name field)).member? key =
      if key = name then field.map write else none := by
  cases field with
  | none => simp [memberOf]
  | some a => simp [memberOf]

theorem optional?_of_filled {j value : Json} (there : j.member? name = some value)
    (filled : value ≠ null) : j.optional? read name = (read value).map some := by
  rw [optional?, there]
  cases value with
  | null => exact absurd rfl filled
  | _ => rfl

theorem required?_record {names : List String} {needed : Nat} {j : Json}
    {fields : List (String × Json)} (there : j.member? name = some (object fields)) :
    j.required? (asRecord? names needed) name = some (object fields) := by
  rw [required?, there]
  rfl

/-- What is written is read as what it was, and it is not written as null. -/
structure Reads (read : Json → Option α) (write : α → Json) : Prop where
  back : ∀ a, read (write a) = some a
  filled : ∀ a, write a ≠ null

namespace Reads

theorem optional? (reads : Reads read write) {j : Json} {field : Option α}
    (there : j.member? name = field.map write) : j.optional? read name = some field := by
  cases field with
  | none =>
    rw [Json.optional?, there]
    rfl
  | some a =>
    rw [optional?_of_filled there (reads.filled a), reads.back]
    rfl

theorem required? (reads : Reads read write) {j : Json} {a : α}
    (there : j.member? name = some (write a)) : j.required? read name = some a := by
  rw [Json.required?, there]
  exact reads.back a

theorem defaulted? (reads : Reads read write) {j : Json} {a fallback : α}
    (there : j.member? name = some (write a)) : j.defaulted? read fallback name = some a := by
  rw [Json.defaulted?, there]
  exact reads.back a

end Reads

theorem every_map {β : Type} {write : α → β} {read : β → Option α}
    (back : ∀ a, read (write a) = some a) (l : List α) : every read (l.map write) = some l := by
  induction l with
  | nil => rfl
  | cons a rest ih => rw [List.map_cons, every, back, ih]

theorem Reads.list (reads : Reads read write) :
    Reads (asListOf? read) fun l => array (l.map write) :=
  ⟨every_map reads.back, fun _ => Json.noConfusion⟩

theorem reads_text : Reads asText? text := ⟨fun _ => rfl, fun _ => Json.noConfusion⟩

theorem reads_bool : Reads asBool? bool := ⟨fun _ => rfl, fun _ => Json.noConfusion⟩

theorem reads_int32 : Reads asInt32? fun n => int n.toInt := by
  refine ⟨fun n => ?_, fun _ => Json.noConfusion⟩
  have low : Int32.minValue.toInt ≤ n.toInt := Int32.minValue_le_toInt n
  have high : n.toInt ≤ Int32.maxValue.toInt := Int32.toInt_le n
  rw [asInt32?, if_pos ⟨low, high⟩, Int32.ofInt_toInt]

theorem reads_int64 : Reads asInt64? fun n => int n.toInt := by
  refine ⟨fun n => ?_, fun _ => Json.noConfusion⟩
  have low : Int64.minValue.toInt ≤ n.toInt := Int64.minValue_le_toInt n
  have high : n.toInt ≤ Int64.maxValue.toInt := Int64.toInt_le n
  rw [asInt64?, if_pos ⟨low, high⟩, Int64.ofInt_toInt]

theorem reads_stringMap : Reads asStringMap? ofStringMap :=
  ⟨every_map fun _ => rfl, fun _ => Json.noConfusion⟩

end

end Json

open Json

namespace OwnerReference

theorem textField?_of_member {j : Json} {name s : String}
    (there : j.member? name = some (.text s)) : textField? name j = some s := by
  have read : j.optional? asText? name = some (some s) := reads_text.optional? there
  rw [textField?, read]
  rfl

theorem reads : Reads ofJson? toJson := by
  refine ⟨fun r => ?_, fun _ => Json.noConfusion⟩
  have apiVersion : textField? "apiVersion" r.toJson = some r.apiVersion :=
    textField?_of_member (by simp [toJson])
  have kind : textField? "kind" r.toJson = some r.kind :=
    textField?_of_member (by simp [toJson])
  have name : textField? "name" r.toJson = some r.name :=
    textField?_of_member (by simp [toJson])
  have uid : textField? "uid" r.toJson = some r.uid := textField?_of_member (by simp [toJson])
  have controller : r.toJson.optional? asBool? "controller" = some r.controller :=
    reads_bool.optional? (by simp [toJson])
  have blocks : r.toJson.optional? asBool? "blockOwnerDeletion" = some r.blockOwnerDeletion :=
    reads_bool.optional? (by simp [toJson])
  rw [ofJson?, apiVersion, kind, name, uid, controller, blocks]
  rfl

end OwnerReference

theorem Metadata.reads : Reads ofJson? toJson := by
  refine ⟨fun m => ?_, fun _ => Json.noConfusion⟩
  have name : m.toJson.optional? asText? "name" = some m.name :=
    reads_text.optional? (by simp [toJson])
  have ns : m.toJson.optional? asText? "namespace" = some m.ns :=
    reads_text.optional? (by simp [toJson])
  have uid : m.toJson.optional? asText? "uid" = some m.uid :=
    reads_text.optional? (by simp [toJson])
  have stem : m.toJson.optional? asText? "generateName" = some m.generateName :=
    reads_text.optional? (by simp [toJson])
  have generation : m.toJson.optional? asInt64? "generation" = some m.generation :=
    reads_int64.optional? (by simp [toJson])
  have labels : m.toJson.optional? asStringMap? "labels" = some m.labels :=
    reads_stringMap.optional? (by simp [toJson])
  have annotations : m.toJson.optional? asStringMap? "annotations" = some m.annotations :=
    reads_stringMap.optional? (by simp [toJson])
  have owners : m.toJson.optional? (asListOf? OwnerReference.ofJson?) "ownerReferences" =
      some m.ownerReferences := OwnerReference.reads.list.optional? (by simp [toJson])
  rw [ofJson?, name, ns, uid, stem, generation, labels, annotations, owners]
  rfl

theorem ObjectReference.reads : Reads ofJson? toJson := by
  refine ⟨fun r => ?_, fun _ => Json.noConfusion⟩
  have apiVersion : r.toJson.optional? asText? "apiVersion" = some r.apiVersion :=
    reads_text.optional? (by simp [toJson])
  have fieldPath : r.toJson.optional? asText? "fieldPath" = some r.fieldPath :=
    reads_text.optional? (by simp [toJson])
  have kind : r.toJson.optional? asText? "kind" = some r.kind :=
    reads_text.optional? (by simp [toJson])
  have name : r.toJson.optional? asText? "name" = some r.name :=
    reads_text.optional? (by simp [toJson])
  have ns : r.toJson.optional? asText? "namespace" = some r.ns :=
    reads_text.optional? (by simp [toJson])
  have version : r.toJson.optional? asText? "resourceVersion" = some r.resourceVersion :=
    reads_text.optional? (by simp [toJson])
  have uid : r.toJson.optional? asText? "uid" = some r.uid :=
    reads_text.optional? (by simp [toJson])
  rw [ofJson?, apiVersion, fieldPath, kind, name, ns, version, uid]
  rfl

theorem MachineStatus.reads : Reads ofJson? toJson := by
  refine ⟨fun s => ?_, fun _ => Json.noConfusion⟩
  have whole : s.toJson.asRecord? ["nodeRef", "phase"] 0 = some s.toJson := rfl
  have nodeRef : s.toJson.optional? ObjectReference.ofJson? "nodeRef" = some s.nodeRef :=
    ObjectReference.reads.optional? (by simp [toJson])
  have phase : s.toJson.optional? asText? "phase" = some s.phase :=
    reads_text.optional? (by simp [toJson])
  rw [ofJson?, whole]
  simp only [Option.bind_eq_bind, Option.bind_some, nodeRef, phase]
  rfl

theorem Machine.reads : Reads ofJson? toJson := by
  refine ⟨fun m => ?_, fun _ => Json.noConfusion⟩
  have whole : m.toJson.asRecord? ["metadata", "spec", "status"] 3 = some m.toJson := rfl
  obtain ⟨spec, held, named⟩ : ∃ spec, m.toJson.member? "spec" = some (.object spec) ∧
      spec = ("clusterName", .text m.clusterName) ::
        memberOf .text "providerID" m.declaredProviderId :=
    ⟨_, by simp [toJson, header], rfl⟩
  have inner : m.toJson.required? (asRecord? ["clusterName", "providerID"] 0) "spec" =
      some (.object spec) := required?_record held
  have metadata : m.toJson.required? Metadata.ofJson? "metadata" = some m.metadata :=
    Metadata.reads.required? (by simp [toJson, header, Resource.metadata])
  have clusterName : (object spec).defaulted? asText? "" "clusterName" = some m.clusterName :=
    reads_text.defaulted? (by simp [named])
  have providerId : (object spec).optional? asText? "providerID" = some m.declaredProviderId :=
    reads_text.optional? (by simp [named])
  have status : m.toJson.optional? MachineStatus.ofJson? "status" = some m.status :=
    MachineStatus.reads.optional? (by simp [toJson, header])
  rw [ofJson?, whole]
  simp only [Option.bind_eq_bind, Option.bind_some, inner, metadata, clusterName, providerId,
    status]
  rfl

theorem Scalable.reads {kind : ScalableKind} :
    Reads (ofJson? : Json → Option (Scalable kind)) toJson := by
  refine ⟨fun s => ?_, fun _ => Json.noConfusion⟩
  have whole : s.toJson.asRecord? ["metadata", "spec"] 2 = some s.toJson := rfl
  obtain ⟨spec, held, named⟩ : ∃ spec, s.toJson.member? "spec" = some (.object spec) ∧
      spec = ("clusterName", .text s.clusterName) ::
        memberOf (fun n => int n.toInt) "replicas" s.declared :=
    ⟨_, by simp [toJson, header], rfl⟩
  have inner : s.toJson.required? (asRecord? ["clusterName", "replicas"] 0) "spec" =
      some (.object spec) := required?_record held
  have metadata : s.toJson.required? Metadata.ofJson? "metadata" = some s.metadata :=
    Metadata.reads.required? (by simp [toJson, header, Resource.metadata])
  have clusterName : (object spec).defaulted? asText? "" "clusterName" = some s.clusterName :=
    reads_text.defaulted? (by simp [named])
  have declared : (object spec).optional? asInt32? "replicas" = some s.declared :=
    reads_int32.optional? (by simp [named])
  rw [ofJson?, whole]
  simp only [Option.bind_eq_bind, Option.bind_some, inner, metadata, clusterName, declared]
  rfl

end NodeGroups
