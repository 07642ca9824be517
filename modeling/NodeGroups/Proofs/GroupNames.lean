import NodeGroups.Proofs.Lookup
import NodeGroups.Summary

/-!
# Identifiers as text

An identifier is read from three parts with slashes between them: a kind whose size can be set, and
a namespace and a name that are segments. What is written of an identifier is read back exactly
where its namespace and its name are segments (`GroupId.parse_text_eq_ok_iff`). The identifiers of
a listing are of this form wherever the objects are placed, so that what is shown of a group can be
used to look at the group.
-/
namespace NodeGroups

theorem ScalableKind.text_clear (kind : ScalableKind) : '/' ∉ kind.text.toList := by
  cases kind with
  | machineSet => decide
  | machineDeployment => decide

namespace GroupId

theorem toList_text (id : GroupId) : id.text.toList =
    Text.joined [id.kind.text.toList, id.ns.toList, id.name.toList] := by
  simp [text, Text.joined]

/-- The texts that are read as an identifier, each of which is what is written of it. -/
theorem parse_eq_ok_iff {s : String} {id : GroupId} : parse s = .ok id ↔
    Text.IsSegment id.ns ∧ Text.IsSegment id.name ∧ s = id.text := by
  constructor
  · intro h
    rw [parse] at h
    split at h
    · next kind ns name cut =>
      obtain ⟨whole, clear⟩ := (Text.segments_eq_iff (List.cons_ne_nil _ _)).mp cut
      split at h
      · cases h
      · next filled =>
        rw [not_or] at filled
        split at h
        · cases h
        · next found known =>
          cases h
          have kindText : kind = found.text.toList := by
            rw [← ScalableKind.ofText?_eq_some_iff.mp known, String.toList_ofList]
          refine ⟨⟨by simpa using filled.1, ?_⟩, ⟨by simpa using filled.2, ?_⟩, ?_⟩
          · rw [String.toList_ofList]
            exact clear ns (by simp)
          · rw [String.toList_ofList]
            exact clear name (by simp)
          · apply String.toList_inj.mp
            rw [toList_text, whole, kindText, String.toList_ofList, String.toList_ofList]
    · cases h
  · rintro ⟨ns, name, rfl⟩
    have cut : Text.segments id.text.toList =
        [id.kind.text.toList, id.ns.toList, id.name.toList] := by
      refine (Text.segments_eq_iff (List.cons_ne_nil _ _)).mpr ⟨id.toList_text, ?_⟩
      simp [ns.2, name.2, id.kind.text_clear]
    have filled : ¬ (id.ns.toList = [] ∨ id.name.toList = []) := by
      simp [ns.1, name.1]
    have known : ScalableKind.ofText? id.kind.text = some id.kind :=
      ScalableKind.ofText?_eq_some_iff.mpr rfl
    rw [parse, cut]
    dsimp only
    rw [if_neg filled, String.ofList_toList, known, String.ofList_toList, String.ofList_toList]

/-- What is written is read back exactly where namespace and name are segments. -/
theorem parse_text_eq_ok_iff {id : GroupId} :
    parse id.text = .ok id ↔ Text.IsSegment id.ns ∧ Text.IsSegment id.name := by
  rw [parse_eq_ok_iff]
  constructor
  · rintro ⟨ns, name, -⟩
    exact ⟨ns, name⟩
  · rintro ⟨ns, name⟩
    exact ⟨ns, name, rfl⟩

/-- The texts that are read, said without identifiers. -/
theorem exists_parse_iff {s : String} : (∃ id, parse s = .ok id) ↔
    ∃ kind ns name : String, (kind = "MachineSet" ∨ kind = "MachineDeployment") ∧
      Text.IsSegment ns ∧ Text.IsSegment name ∧ s = kind ++ "/" ++ ns ++ "/" ++ name := by
  constructor
  · rintro ⟨⟨kind, ns, name⟩, read⟩
    obtain ⟨segment, part, whole⟩ := parse_eq_ok_iff.mp read
    refine ⟨kind.text, ns, name, ?_, segment, part, whole⟩
    cases kind with
    | machineSet => exact Or.inl rfl
    | machineDeployment => exact Or.inr rfl
  · rintro ⟨kind, ns, name, rfl | rfl, segment, part, whole⟩
    · exact ⟨⟨.machineSet, ns, name⟩, parse_eq_ok_iff.mpr ⟨segment, part, whole⟩⟩
    · exact ⟨⟨.machineDeployment, ns, name⟩, parse_eq_ok_iff.mpr ⟨segment, part, whole⟩⟩

/-- A refused text stands in the error as it was given. -/
theorem parse_error {s : String} {e : Error} (h : parse s = .error e) :
    ∃ fault : KeyFault, e = fault.about s := by
  rw [parse] at h
  split at h
  · split at h
    · cases h
      exact ⟨.groupPartEmpty, rfl⟩
    · split at h
      · cases h
        exact ⟨.groupKind, rfl⟩
      · cases h
  · cases h
    exact ⟨.groupShape, rfl⟩

end GroupId

/-- The identifier of a root that is placed can be read back. -/
theorem Cluster.IsRoot.parse_text {c : Cluster} (placed : c.Placed) {r : Root} (h : c.IsRoot r)
    {id : GroupId} (hid : r.id = .ok id) : GroupId.parse id.text = .ok id := by
  obtain ⟨ns, name, -, -, segment, part, key⟩ := (h.placed placed).key_eq_ok
  obtain ⟨-, same⟩ := Root.id_eq_ok_iff.mp hid
  cases key.symm.trans same
  exact GroupId.parse_text_eq_ok_iff.mpr ⟨segment, part⟩

/-- Identifiers are told from their texts, and a listed group can be looked up by the text that is
shown of it. -/
theorem GroupId.listed_texts_look_up :
    (∀ s : String,
      ((∃ id, parse s = .ok id) ↔
        ∃ kind ns name : String, (kind = "MachineSet" ∨ kind = "MachineDeployment") ∧
          Text.IsSegment ns ∧ Text.IsSegment name ∧ s = kind ++ "/" ++ ns ++ "/" ++ name) ∧
      (∀ id, parse s = .ok id → id.text = s) ∧
      ∀ e, parse s = .error e → ∃ message, e = .invalidKey s message) ∧
    (∀ id : GroupId, parse id.text = .ok id ↔ Text.IsSegment id.ns ∧ Text.IsSegment id.name) ∧
    ∀ d : Directory, d.cluster.Reached → d.cluster.InMemory → d.cluster.Placed →
      d.settings.validate = .ok () → ∀ gs, d.groups = .ok gs →
        ∀ summary ∈ gs.map fun g => g.summary d.cluster,
          ∃ id g, parse summary.id = .ok id ∧ d.lookup id = .ok (.scalable g) ∧
            g.summary d.cluster = summary := by
  refine ⟨fun s => ⟨exists_parse_iff, fun id read => ?_, fun e failed => ?_⟩,
    fun id => parse_text_eq_ok_iff, ?_⟩
  · obtain ⟨-, -, whole⟩ := parse_eq_ok_iff.mp read
    exact whole.symm
  · obtain ⟨fault, rfl⟩ := parse_error failed
    exact ⟨fault.message, rfl⟩
  · intro d reached memory placed valid gs listed summary hs
    obtain ⟨g, hg, rfl⟩ := List.mem_map.mp hs
    have root := ((Directory.mem_groups_iff listed).mp hg).1
    have look : d.lookup g.id = .ok (.scalable g) :=
      (Directory.lookup_scalable_iff reached memory valid listed).mpr ⟨hg, rfl⟩
    exact ⟨g.id, g, root.parse_text placed (Directory.id_of_mem_groups listed hg), look, rfl⟩

namespace Lab

/-- The two groups of the small cluster can be looked up by what is shown of them. A text is no
identifier if its kind has no size, if it has a slash too few or one too many, or an empty part. -/
theorem shown_groups_look_up : directory.cluster.Reached ∧ directory.cluster.InMemory ∧
    directory.cluster.Placed ∧ directory.settings.validate = .ok () ∧
    directory.groups = .ok [soloGroup, fleetGroup] ∧
    (∀ summary ∈ [soloGroup, fleetGroup].map fun g => g.summary directory.cluster,
      ∃ id g, GroupId.parse summary.id = .ok id ∧ directory.lookup id = .ok (.scalable g) ∧
        g.summary directory.cluster = summary) ∧
    (∃ id, GroupId.parse "MachineSet/lab/solo" = .ok id ∧ id.text = "MachineSet/lab/solo") ∧
    ∀ s ∈ ["Machine/lab/solo", "MachineSet/solo", "MachineSet/lab/part/solo", "MachineSet//solo"],
      ∃ e, GroupId.parse s = .error e ∧ ∃ message, e = .invalidKey s message := by
  obtain ⟨texts, -, listed⟩ := GroupId.listed_texts_look_up
  have valid : directory.settings.validate = .ok () := rfl
  obtain ⟨-, back, -⟩ := texts "MachineSet/lab/solo"
  have read : GroupId.parse "MachineSet/lab/solo" = .ok ⟨.machineSet, "lab", "solo"⟩ := rfl
  refine ⟨reached, inMemory, placed, valid, groups_eq,
    listed directory reached inMemory placed valid _ groups_eq, ⟨_, read, back _ read⟩, ?_⟩
  intro s hs
  obtain ⟨e, failed⟩ : ∃ e, GroupId.parse s = .error e := by
    simp only [List.mem_cons, List.not_mem_nil, or_false] at hs
    rcases hs with rfl | rfl | rfl | rfl <;> exact ⟨_, rfl⟩
  exact ⟨e, failed, (texts s).2.2 e failed⟩

end Lab
end NodeGroups
