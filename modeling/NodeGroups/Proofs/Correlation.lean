import NodeGroups.Correlation
import NodeGroups.Proofs.Keys

/-!
# What a Node's signals say

A Node that has a provider ID leads to the Machine that carries the ID (`Cluster.carrier?`).
Where there is none, an annotation is followed, which is that of the first Node with the ID
(`Cluster.guide?`). The annotation is malformed, or there is nothing in it, or it points at a key
(`Node.PointsAt`), and then at the Machine that is cached under the key (`Cluster.Resolves`).
-/
namespace NodeGroups

namespace Node

/-- There is no annotation about a Machine, or an empty one. -/
def Unannotated (n : Node) : Prop :=
  ∀ value, n.metadata.annotation? machineEntry = some value → value = ""

/-- The annotation is there and has too many slashes, or no name after the last one. -/
def Malformed (n : Node) : Prop :=
  ∃ value, n.metadata.annotation? machineEntry = some value ∧
    (2 ≤ value.toList.count '/' ∨ value.toList.getLast? = some '/')

/-- The annotation has the namespace and the name of the key, or it has the name alone and the
namespace is in the second annotation, if that is there. -/
def PointsAt (n : Node) (key : ObjectKey) : Prop :=
  Text.IsSegment key.name ∧ ∃ value, n.metadata.annotation? machineEntry = some value ∧
    (Text.IsSegment key.ns ∧ value = key.ns ++ "/" ++ key.name ∨
      (value = key.name ∨ value = "/" ++ key.name) ∧
        key.ns = (n.metadata.annotation? clusterNamespaceEntry).getD "")

variable {n : Node}

theorem annotation_cases (n : Node) : n.Unannotated ∨
    ∃ value, n.metadata.annotation? machineEntry = some value ∧ value ≠ "" := by
  by_cases empty : n.Unannotated
  · exact Or.inl empty
  · rw [Unannotated, not_forall] at empty
    obtain ⟨value, there⟩ := empty
    exact Or.inr ⟨value, Classical.not_imp.mp there⟩

theorem machineKey?_of_unannotated (h : n.Unannotated) : n.machineKey? = .ok none := by
  have absent : filled (n.metadata.annotation? machineEntry) = none := by
    cases there : filled (n.metadata.annotation? machineEntry) with
    | none => rfl
    | some value =>
      obtain ⟨own, kept⟩ := filled_eq_some_iff.mp there
      exact absurd (h value own) kept
  rw [machineKey?, absent]

section
variable {value : String} (own : n.metadata.annotation? machineEntry = some value)
  (kept : value ≠ "")

include own kept

/-- The annotation is read as a key, the namespace of which may come from the second one. -/
theorem machineKey?_of_value : n.machineKey? = (ObjectKey.parse value).map fun key =>
    some (if key.ns = "" then
      { key with ns := (n.metadata.annotation? clusterNamespaceEntry).getD "" } else key) := by
  have there : filled (n.metadata.annotation? machineEntry) = some value :=
    filled_eq_some_iff.mpr ⟨own, kept⟩
  rw [machineKey?, there]
  cases read : ObjectKey.parse value with
  | error e => simp only [read, Except.map]
  | ok key => by_cases nowhere : key.ns = "" <;> simp [read, Except.map, nowhere]

theorem machineKey?_eq_error_of_value : (∃ e, n.machineKey? = .error e) ↔
    2 ≤ value.toList.count '/' ∨ value.toList.getLast? = some '/' := by
  have refused := ObjectKey.parse_eq_error_iff (s := value)
  rw [or_iff_right kept] at refused
  rw [machineKey?_of_value own kept, ← refused]
  cases ObjectKey.parse value <;> simp [Except.map]

theorem machineKey?_eq_some_iff_parse {ns name : String} :
    n.machineKey? = .ok (some ⟨ns, name⟩) ↔
      (ns ≠ "" ∧ ObjectKey.parse value = .ok ⟨ns, name⟩) ∨
        ObjectKey.parse value = .ok ⟨"", name⟩ ∧
          ns = (n.metadata.annotation? clusterNamespaceEntry).getD "" := by
  rw [machineKey?_of_value own kept]
  cases ObjectKey.parse value with
  | error e => simp [Except.map]
  | ok read =>
    obtain ⟨place, shown⟩ := read
    simp only [Except.map, Except.ok.injEq, Option.some.injEq]
    -- The namespace that was read is kept unless it is empty; the one that was given may be too.
    by_cases nowhere : place = ""
    · simp only [nowhere, if_true, ObjectKey.mk.injEq, true_and]
      constructor
      · rintro ⟨given, same⟩
        exact Or.inr ⟨same, given.symm⟩
      · rintro (⟨there, missing, -⟩ | ⟨same, given⟩)
        · exact absurd missing.symm there
        · exact ⟨given.symm, same⟩
    · simp only [nowhere, if_false, ObjectKey.mk.injEq, false_and, or_false]
      constructor
      · rintro ⟨rfl, same⟩
        exact ⟨nowhere, rfl, same⟩
      · rintro ⟨-, same⟩
        exact same

theorem machineKey?_eq_some_of_value {key : ObjectKey} : n.machineKey? = .ok (some key) ↔
    Text.IsSegment key.name ∧ (Text.IsSegment key.ns ∧ value = key.ns ++ "/" ++ key.name ∨
      (value = key.name ∨ value = "/" ++ key.name) ∧
        key.ns = (n.metadata.annotation? clusterNamespaceEntry).getD "") := by
  obtain ⟨ns, name⟩ := key
  -- The slash of the value either follows a namespace or starts the value, or there is none.
  have pair : ns ≠ "" ∧ ObjectKey.parse value = .ok ⟨ns, name⟩ ↔
      Text.IsSegment name ∧ Text.IsSegment ns ∧ value = ns ++ "/" ++ name := by
    rw [ObjectKey.parse_eq_ok_iff]
    constructor
    · rintro ⟨there, part, clear, whole | ⟨nowhere, -⟩⟩
      · exact ⟨part, ⟨there, clear⟩, whole⟩
      · exact absurd nowhere there
    · rintro ⟨part, segment, whole⟩
      exact ⟨segment.1, part, segment.2, Or.inl whole⟩
  have alone : ObjectKey.parse value = .ok ⟨"", name⟩ ↔
      Text.IsSegment name ∧ (value = name ∨ value = "/" ++ name) := by
    rw [ObjectKey.parse_eq_ok_iff]
    simp [or_comm]
  rw [machineKey?_eq_some_iff_parse own kept, pair, alone, and_assoc, ← and_or_left]

end

theorem machineKey?_eq_error_iff : (∃ e, n.machineKey? = .error e) ↔ n.Malformed := by
  rcases n.annotation_cases with empty | ⟨value, own, kept⟩
  · have sound : ¬ n.Malformed := by
      rintro ⟨value, own, wrong⟩
      rw [empty value own] at wrong
      simp at wrong
    simp [machineKey?_of_unannotated empty, sound]
  · simp only [machineKey?_eq_error_of_value own kept, Malformed, own, Option.some.injEq,
      exists_eq_left']

/-- The key that is read is the one that the annotation points at. -/
theorem machineKey?_eq_some_iff {key : ObjectKey} :
    n.machineKey? = .ok (some key) ↔ n.PointsAt key := by
  rcases n.annotation_cases with empty | ⟨value, own, kept⟩
  · have nowhere : ¬ n.PointsAt key := by
      rintro ⟨part, value, own, way⟩
      rw [empty value own] at way
      rcases way with ⟨-, whole⟩ | ⟨alone | alone, -⟩
      · have longer := congrArg String.toList whole
        simp at longer
      · exact part.1 alone.symm
      · have longer := congrArg String.toList alone
        simp at longer
    simp [machineKey?_of_unannotated empty, nowhere]
  · simp only [machineKey?_eq_some_of_value own kept, PointsAt, own, Option.some.injEq,
      exists_eq_left']

theorem machineKey?_eq_none_iff : n.machineKey? = .ok none ↔ n.Unannotated := by
  rcases n.annotation_cases with empty | ⟨value, own, kept⟩
  · exact ⟨fun _ => empty, fun _ => machineKey?_of_unannotated empty⟩
  · rw [machineKey?_of_value own kept]
    have annotated : ¬ n.Unannotated := fun empty => kept (empty value own)
    cases ObjectKey.parse value <;> simp [Except.map, annotated]

end Node

namespace Cluster

/-- The first Machine, of whatever namespace, that carries the Node's provider ID. -/
def carrier? (c : Cluster) (n : Node) : Option Machine :=
  n.providerId?.bind fun id => (c.machines.within none).find? fun m => m.providerId? = some id

/-- The Node whose annotation is followed where no Machine carries the provider ID. -/
def guide? (c : Cluster) (n : Node) : Option Node :=
  n.providerId?.elim (some n) c.nodeByProviderId?

theorem annotatedMachine?_eq (c : Cluster) (n : Node) :
    c.annotatedMachine? n = n.machineKey?.map fun named => named.bind c.machineByKey? := by
  rw [annotatedMachine?]
  cases n.machineKey? with
  | error e => rfl
  | ok named => cases named <;> rfl

/-- What an annotation leads to is what is under the key that it points at. -/
theorem annotatedMachine?_leads_iff {c : Cluster} {n : Node} {m : Machine} :
    c.annotatedMachine? n = .ok (some m) ↔
      ∃ key, n.PointsAt key ∧ c.machineByKey? key = some m := by
  simp only [annotatedMachine?_eq, ← Node.machineKey?_eq_some_iff]
  cases n.machineKey? with
  | error e => simp [Except.map]
  | ok named => cases named <;> simp [Except.map]

theorem machineForNode?_eq (c : Cluster) (n : Node) : c.machineForNode? n =
    (c.carrier? n).elim ((c.guide? n).elim (.ok none) c.annotatedMachine?)
      fun m => .ok (some m) := by
  rw [machineForNode?, carrier?, guide?]
  cases own : n.providerId? with
  | none => rfl
  | some id =>
    simp only [machineByProviderId?, if_neg (filled_eq_some_iff.mp own).2, Option.bind_some,
      Option.elim]
    cases (c.machines.within none).find? fun m => m.providerId? = some id with
    | some m => rfl
    | none => cases c.nodeByProviderId? id <;> rfl

/-- What the Node's own annotation comes to where the Machines were cached by hand. -/
structure Resolves (c : Cluster) (n : Node) (answer : Except Error (Option Machine)) : Prop where
  failed : (∃ e, answer = .error e) ↔ n.Malformed
  nowhere : answer = .ok none ↔ n.Unannotated ∨
    ∃ key, n.PointsAt key ∧ ∀ m ∈ c.machines.objects, m.metadata.key ≠ .ok key
  found : ∀ m, answer = .ok (some m) ↔
    ∃ key, n.PointsAt key ∧ m ∈ c.machines.objects ∧ m.metadata.key = .ok key

section
variable {c : Cluster} (keyed : c.machines.Keyed) (folding : c.machines.keying = .folding)

include keyed folding

theorem machineByKey?_folding {key : ObjectKey} {m : Machine} :
    c.machineByKey? key = some m ↔ m ∈ c.machines.objects ∧ m.metadata.key = .ok key :=
  keyed.get?_key folding

theorem annotatedMachine?_resolves (n : Node) : c.Resolves n (c.annotatedMachine? n) := by
  refine ⟨?_, ?_, fun m => ?_⟩
  · rw [annotatedMachine?_eq, ← Node.machineKey?_eq_error_iff]
    cases n.machineKey? <;> simp [Except.map]
  · rw [annotatedMachine?_eq, ← Node.machineKey?_eq_none_iff]
    simp only [← Node.machineKey?_eq_some_iff]
    cases n.machineKey? with
    | error e => simp [Except.map]
    | ok named =>
      cases named with
      | none => simp [Except.map]
      | some key =>
        have absent : c.machineByKey? key = none ↔
            ∀ m ∈ c.machines.objects, m.metadata.key ≠ .ok key := by
          simp only [Option.eq_none_iff_forall_ne_some, ne_eq,
            machineByKey?_folding keyed folding, not_and]
        simp [Except.map, absent]
  · simp only [annotatedMachine?_leads_iff, machineByKey?_folding keyed folding]

end

end Cluster
end NodeGroups
