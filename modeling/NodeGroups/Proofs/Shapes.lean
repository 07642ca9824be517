import NodeGroups.Proofs.Encoding
import NodeGroups.Proofs.Enumeration
import Mathlib.Logic.Relation

/-!
# Members that the types do not have

A shape tells which members of a value are read, and on which level. A member of any other name can
be put in or taken out, in a record at whatever depth, and nothing else is read of the value than
before (`Shape.Ignores`).
-/
namespace NodeGroups

/-- What is read of a value: a record under these names, or a list of items that are alike, or
nothing that has members of its own. -/
inductive Shape where
  | whole
  | items (shape : Shape)
  | record (fields : List (String × Shape))

namespace Shape

/-- The second value is the first one with a member more, in a record that has no field of its
name. Where a record is given as the array of its fields, these are told by their places. -/
inductive Adds : Shape → Json → Json → Prop where
  | here {fields : List (String × Shape)} {before after : List (String × Json)} {name : String}
      {value : Json} (unknown : fields.lookup name = none) :
      Adds (.record fields) (.object (before ++ after)) (.object (before ++ (name, value) :: after))
  | inside {fields : List (String × Shape)} {before after : List (String × Json)} {name : String}
      {shape : Shape} {v w : Json} (known : fields.lookup name = some shape)
      (deeper : Adds shape v w) :
      Adds (.record fields) (.object (before ++ (name, v) :: after))
        (.object (before ++ (name, w) :: after))
  | placed {fields : List (String × Shape)} {before after : List Json} {name : String}
      {shape : Shape} {v w : Json} (place : (fields.map Prod.fst)[before.length]? = some name)
      (known : fields.lookup name = some shape) (deeper : Adds shape v w) :
      Adds (.record fields) (.array (before ++ v :: after)) (.array (before ++ w :: after))
  | item {shape : Shape} {before after : List Json} {v w : Json} (deeper : Adds shape v w) :
      Adds (.items shape) (.array (before ++ v :: after)) (.array (before ++ w :: after))

/-- What is read does not depend on members that the shape does not have. -/
def Ignores {α : Type} (shape : Shape) (read : Json → Option α) : Prop :=
  ∀ j k, shape.Adds j k → read j = read k

section
variable {α : Type} {shape : Shape} {read : Json → Option α}

theorem ignores_whole (read : Json → Option α) : whole.Ignores read := nofun

theorem Ignores.eqvGen (ignored : shape.Ignores read) {j k : Json}
    (h : Relation.EqvGen shape.Adds j k) : read j = read k := by
  induction h with
  | rel j k added => exact ignored j k added
  | refl j => rfl
  | symm j k _ ih => exact ih.symm
  | trans i j k _ _ first second => exact first.trans second

theorem Adds.filled {j k : Json} (h : shape.Adds j k) : j ≠ .null ∧ k ≠ .null := by
  cases h <;> exact ⟨Json.noConfusion, Json.noConfusion⟩

theorem every_congr {α β : Type} {read : α → Option β} {v w : α} (same : read v = read w)
    (before after : List α) :
    Json.every read (before ++ v :: after) = Json.every read (before ++ w :: after) := by
  induction before with
  | nil => simp only [List.nil_append, Json.every, same]
  | cons a before ih => simp only [List.cons_append, Json.every, ih]

theorem Ignores.listOf (ignored : shape.Ignores read) :
    (items shape).Ignores (Json.asListOf? read) := by
  intro j k h
  cases h with
  | item deeper => exact every_congr (ignored _ _ deeper) _ _

end

section
variable {α : Type} {fields : List (String × Shape)} {name : String} {shape : Shape}
  {read : Json → Option α} {j k : Json} (h : (record fields).Adds j k)

include h

/-- Of a field there is what there was, or a value with a member more somewhere inside. -/
theorem Adds.member?_cases (known : fields.lookup name = some shape) :
    j.member? name = k.member? name ∨
      ∃ v w, j.member? name = some v ∧ k.member? name = some w ∧ shape.Adds v w := by
  cases h with
  | @here _ before after other value unknown =>
    have apart : name ≠ other := by
      rintro rfl
      cases known.symm.trans unknown
    simp [apart]
  | @inside _ before after other inner v w also deeper =>
    simp only [Json.member?_append, Json.member?_cons]
    cases (Json.object before).member? name with
    | some value => exact Or.inl rfl
    | none =>
      by_cases same : name = other
      · subst same
        cases known.symm.trans also
        exact Or.inr ⟨v, w, by simp, by simp, deeper⟩
      · simp [same]
  | placed => exact Or.inl rfl

theorem Adds.optional? (ignored : shape.Ignores read) (known : fields.lookup name = some shape) :
    j.optional? read name = k.optional? read name := by
  rcases h.member?_cases known with same | ⟨v, w, hv, hw, deeper⟩
  · rw [Json.optional?, Json.optional?, same]
  · rw [Json.optional?_of_filled hv deeper.filled.1, Json.optional?_of_filled hw deeper.filled.2,
      ignored v w deeper]

theorem Adds.required? (ignored : shape.Ignores read) (known : fields.lookup name = some shape) :
    j.required? read name = k.required? read name := by
  rcases h.member?_cases known with same | ⟨v, w, hv, hw, deeper⟩
  · rw [Json.required?, Json.required?, same]
  · rw [Json.required?, Json.required?, hv, hw]
    exact ignored v w deeper

theorem Adds.defaulted? (ignored : shape.Ignores read)
    (known : fields.lookup name = some shape) (fallback : α) :
    j.defaulted? read fallback name = k.defaulted? read fallback name := by
  rcases h.member?_cases known with same | ⟨v, w, hv, hw, deeper⟩
  · rw [Json.defaulted?, Json.defaulted?, same]
  · rw [Json.defaulted?, Json.defaulted?, hv, hw]
    exact ignored v w deeper

/-- A reading that only asks whether there is an object. -/
theorem Adds.asObject?_bind (result : Option α) :
    (j.asObject?.bind fun _ => result) = k.asObject?.bind fun _ => result := by
  cases h <;> rfl

end

section
variable {fields inner : List (String × Shape)} {name : String} {j k : Json}

/-- The value at a place of an array is that of a field of the record. -/
theorem zip_placed {names : List String} {before : List Json}
    (place : names[before.length]? = some name) (after : List Json) :
    ∃ front back, ∀ v, names.zip (before ++ v :: after) = front ++ (name, v) :: back := by
  induction before generalizing names with
  | nil =>
    cases names with
    | nil => cases place
    | cons first rest =>
      cases place
      exact ⟨[], rest.zip after, fun v => rfl⟩
  | cons a before ih =>
    cases names with
    | nil => cases place
    | cons first rest =>
      obtain ⟨front, back, same⟩ := ih place
      exact ⟨(first, a) :: front, back, fun v => congrArg ((first, a) :: ·) (same v)⟩

section
variable {β : Type} {names : List String} {next : Json → Option β}

/-- What is read of a record that may be an array, too. -/
theorem Adds.asRecord?_bind (h : (record fields).Adds j k) (listed : fields.map Prod.fst = names)
    (needed : Nat) (ignored : (record fields).Ignores next) :
    (j.asRecord? names needed).bind next = (k.asRecord? names needed).bind next := by
  cases h with
  | here unknown => exact ignored _ _ (.here unknown)
  | inside known deeper => exact ignored _ _ (.inside known deeper)
  | @placed _ before after name shape v w place known deeper =>
    simp only [Json.asRecord?, List.length_append, List.length_cons]
    split
    · obtain ⟨front, back, same⟩ := zip_placed (listed ▸ place) after
      rw [same, same]
      exact ignored _ _ (.inside known deeper)
    · rfl

theorem Adds.required?_record_bind (h : (record fields).Adds j k)
    (known : fields.lookup name = some (record inner)) (listed : inner.map Prod.fst = names)
    (needed : Nat) (ignored : (record inner).Ignores next) :
    (j.required? (Json.asRecord? names needed) name).bind next =
      (k.required? (Json.asRecord? names needed) name).bind next := by
  rcases h.member?_cases known with same | ⟨v, w, hv, hw, deeper⟩
  · rw [Json.required?, Json.required?, same]
  · rw [Json.required?, Json.required?, hv, hw]
    exact deeper.asRecord?_bind listed needed ignored

end

end

/-- Fields that have no members of their own. -/
def plain (names : List String) : List (String × Shape) := names.map fun name => (name, whole)

end Shape

open Shape

namespace OwnerReference

def fields : List (String × Shape) :=
  plain ["apiVersion", "kind", "name", "uid", "controller", "blockOwnerDeletion"]

def shape : Shape := record fields

theorem ignores : shape.Ignores ofJson? := by
  intro j k h
  have text (name : String) (known : fields.lookup name = some whole) :
      textField? name j = textField? name k := by
    rw [textField?, textField?, h.optional? (ignores_whole _) known]
  have flag (name : String) (known : fields.lookup name = some whole) :
      j.optional? Json.asBool? name = k.optional? Json.asBool? name :=
    h.optional? (ignores_whole _) known
  simp only [ofJson?, text "apiVersion" rfl, text "kind" rfl, text "name" rfl, text "uid" rfl,
    flag "controller" rfl, flag "blockOwnerDeletion" rfl]
  exact h.asObject?_bind _

end OwnerReference

namespace Metadata

/-- The fields that are read, and the names of those that are not. -/
def fields : List (String × Shape) :=
  ("ownerReferences", items OwnerReference.shape) ::
    plain ["name", "namespace", "uid", "generateName", "generation", "labels", "annotations",
      "creationTimestamp", "deletionGracePeriodSeconds", "deletionTimestamp", "finalizers",
      "managedFields", "resourceVersion", "selfLink"]

def shape : Shape := record fields

theorem ignores : shape.Ignores ofJson? := by
  intro j k h
  have field {α : Type} (read : Json → Option α) (name : String)
      (known : fields.lookup name = some whole) : j.optional? read name = k.optional? read name :=
    h.optional? (ignores_whole read) known
  have owners : j.optional? (Json.asListOf? OwnerReference.ofJson?) "ownerReferences" =
      k.optional? (Json.asListOf? OwnerReference.ofJson?) "ownerReferences" :=
    h.optional? OwnerReference.ignores.listOf rfl
  simp only [ofJson?, field _ "name" rfl, field _ "namespace" rfl, field _ "uid" rfl,
    field _ "generateName" rfl, field _ "generation" rfl, field _ "labels" rfl,
    field _ "annotations" rfl, owners]
  exact h.asObject?_bind _

end Metadata

namespace ObjectReference

def fields : List (String × Shape) :=
  plain ["apiVersion", "fieldPath", "kind", "name", "namespace", "resourceVersion", "uid"]

def shape : Shape := record fields

theorem ignores : shape.Ignores ofJson? := by
  intro j k h
  have text (name : String) (known : fields.lookup name = some whole) :
      j.optional? Json.asText? name = k.optional? Json.asText? name :=
    h.optional? (ignores_whole _) known
  simp only [ofJson?, text "apiVersion" rfl, text "fieldPath" rfl, text "kind" rfl,
    text "name" rfl, text "namespace" rfl, text "resourceVersion" rfl, text "uid" rfl]
  exact h.asObject?_bind _

end ObjectReference

namespace MachineStatus

def fields : List (String × Shape) :=
  [("nodeRef", ObjectReference.shape), ("phase", whole)]

def shape : Shape := record fields

theorem ignores : shape.Ignores ofJson? := by
  intro j k h
  simp only [ofJson?, Option.bind_eq_bind]
  refine h.asRecord?_bind rfl 0 fun v w added => ?_
  have nodeRef : v.optional? ObjectReference.ofJson? "nodeRef" =
      w.optional? ObjectReference.ofJson? "nodeRef" :=
    added.optional? ObjectReference.ignores rfl
  have phase : v.optional? Json.asText? "phase" = w.optional? Json.asText? "phase" :=
    added.optional? (ignores_whole _) rfl
  rw [nodeRef, phase]

end MachineStatus

namespace Machine

def specFields : List (String × Shape) := plain ["clusterName", "providerID"]

def fields : List (String × Shape) :=
  [("metadata", Metadata.shape), ("spec", record specFields), ("status", MachineStatus.shape)]

def shape : Shape := record fields

theorem ignores : shape.Ignores ofJson? := by
  intro j k h
  simp only [ofJson?, Option.bind_eq_bind]
  refine h.asRecord?_bind rfl 3 fun v w added => ?_
  have metadata : v.required? Metadata.ofJson? "metadata" =
      w.required? Metadata.ofJson? "metadata" := added.required? Metadata.ignores rfl
  have status : v.optional? MachineStatus.ofJson? "status" =
      w.optional? MachineStatus.ofJson? "status" := added.optional? MachineStatus.ignores rfl
  have spec : fields.lookup "spec" = some (record specFields) := rfl
  rw [metadata, status]
  refine added.required?_record_bind spec rfl 0 fun a b deeper => ?_
  have clusterName : a.defaulted? Json.asText? "" "clusterName" =
      b.defaulted? Json.asText? "" "clusterName" := deeper.defaulted? (ignores_whole _) rfl ""
  have providerId : a.optional? Json.asText? "providerID" =
      b.optional? Json.asText? "providerID" := deeper.optional? (ignores_whole _) rfl
  rw [clusterName, providerId]

end Machine

namespace Scalable

def specFields : List (String × Shape) := plain ["clusterName", "replicas"]

def fields : List (String × Shape) :=
  [("metadata", Metadata.shape), ("spec", record specFields)]

/-- The shape of both kinds that declare a replica count. -/
def shape : Shape := record fields

theorem ignores (kind : ScalableKind) :
    shape.Ignores (ofJson? : Json → Option (Scalable kind)) := by
  intro j k h
  simp only [ofJson?, Option.bind_eq_bind]
  refine h.asRecord?_bind rfl 2 fun v w added => ?_
  have metadata : v.required? Metadata.ofJson? "metadata" =
      w.required? Metadata.ofJson? "metadata" := added.required? Metadata.ignores rfl
  have spec : fields.lookup "spec" = some (record specFields) := rfl
  rw [metadata]
  refine added.required?_record_bind spec rfl 0 fun a b deeper => ?_
  have clusterName : a.defaulted? Json.asText? "" "clusterName" =
      b.defaulted? Json.asText? "" "clusterName" := deeper.defaulted? (ignores_whole _) rfl ""
  have declared : a.optional? Json.asInt32? "replicas" = b.optional? Json.asInt32? "replicas" :=
    deeper.optional? (ignores_whole _) rfl
  rw [clusterName, declared]

end Scalable

/-- What holds of a kind whose objects can be written and read without a loss, and of which nothing
is read but what is in the shape. -/
structure Coded.Survives (α : Type) [Coded α] (shape : Shape) : Prop where
  back : ∀ a : α, Coded.ofJson? (Coded.toJson a) = some a
  again : ∀ j (a : α), Coded.ofJson? j = some a →
    (Coded.ofJson? (Coded.toJson a) : Option α) = Coded.ofJson? j
  unknown : ∀ j k, Relation.EqvGen shape.Adds j k →
    (Coded.ofJson? j : Option α) = Coded.ofJson? k

theorem Coded.survives {α : Type} [Coded α] {shape : Shape}
    (reads : Json.Reads (Coded.ofJson? : Json → Option α) Coded.toJson)
    (ignored : shape.Ignores (Coded.ofJson? : Json → Option α)) : Coded.Survives α shape where
  back := reads.back
  again _ a decoded := (reads.back a).trans decoded.symm
  unknown _ _ same := ignored.eqvGen same

/-- Machines, MachineSets and MachineDeployments are read as what was written, and members that
their types do not have can be put into a value or taken out of it wherever they are. -/
theorem objects_survive_encoding :
    (Coded.Survives Machine Machine.shape ∧
      ∀ j (m : Machine), Machine.ofJson? j = some m → ∃ k, Machine.ofJson? m.toJson = some k ∧
        k.providerId? = m.providerId? ∧ k.nodeName? = m.nodeName?) ∧
    ∀ kind, Coded.Survives (Scalable kind) Scalable.shape ∧
      ∀ j (s : Scalable kind), Scalable.ofJson? j = some s →
        ∃ t : Scalable kind, Scalable.ofJson? s.toJson = some t ∧ t.replicas = s.replicas := by
  refine ⟨⟨Coded.survives Machine.reads Machine.ignores, fun j m _ => ?_⟩, fun kind =>
    ⟨Coded.survives Scalable.reads (Scalable.ignores kind), fun j s _ => ?_⟩⟩
  · exact ⟨m, Machine.reads.back m, rfl, rfl⟩
  · exact ⟨s, Scalable.reads.back s, rfl⟩

namespace Lab

/-- A Machine as JSON, with this spec. -/
def machineJson (spec : Json) : Json :=
  .object ([("metadata", partMachine.metadata.toJson)] ++ ("spec", spec) :: [])

def sparseSpec : Json := .object ([("clusterName", .text "lab")] ++ [])

/-- The spec with a member that the type does not have. -/
def bootstrapSpec : Json :=
  .object ([("clusterName", .text "lab")] ++
    ("bootstrap", .object [("dataSecretName", .null)]) :: [])

/-- The bootstrap data of a Machine is passed over, and the Machine that is read is read again. -/
theorem bootstrap_passed_over :
    Relation.EqvGen Machine.shape.Adds (machineJson sparseSpec) (machineJson bootstrapSpec) ∧
    Machine.ofJson? (machineJson sparseSpec) = some { partMachine with status := none } ∧
    Machine.ofJson? (machineJson bootstrapSpec) = some { partMachine with status := none } ∧
    Machine.ofJson? partMachine.toJson = some partMachine := by
  have deeper : (Shape.record Machine.specFields).Adds sparseSpec bootstrapSpec := .here rfl
  have added : Machine.shape.Adds (machineJson sparseSpec) (machineJson bootstrapSpec) :=
    .inside rfl deeper
  have read : Machine.ofJson? (machineJson sparseSpec) =
      some { partMachine with status := none } := rfl
  obtain ⟨⟨machines, -⟩, -⟩ := objects_survive_encoding
  have same := machines.unknown _ _ (.rel _ _ added)
  exact ⟨.rel _ _ added, read, same.symm.trans read, machines.back partMachine⟩

end Lab
end NodeGroups
