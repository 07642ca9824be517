import NodeGroups.Proofs.Ancestry
import NodeGroups.Proofs.Matching

/-!
# The group of a Node and the look at its root

Asked for a Node, the directory walks up to a root; asked for an identifier, it takes the object
that is cached there. Where the walk comes to a root, a look at the identifier of that root says
the same. The two differ in one outcome alone: wrong bounds are an error to the look, and make
the Node one without a group. What is left to fail on the walk is a text that makes no key.
-/
namespace NodeGroups

/-- Bounds apart, a root fails when it has no name to be known by. -/
theorem Root.invalidKey_of_group? {r : Root} {e : Error} (h : r.group? = .error e)
    (other : e.isMisconfiguration = false) : ∃ key message, e = .invalidKey key message := by
  cases hid : r.id with
  | ok id =>
    obtain ⟨-, field, message, rfl⟩ := group?_eq_error hid h
    cases other
  | error unnamed =>
    have same : unnamed = e := by simpa [group?, bounds, hid] using h
    subst same
    rw [id, GroupId.ofMetadata, Metadata.key] at hid
    split at hid
    · cases hid
      exact ⟨_, _, rfl⟩
    · split at hid
      · cases hid
        exact ⟨_, _, rfl⟩
      · cases hid

namespace Cluster

variable {c : Cluster} {n : Node} {e : Error}

theorem invalidKey_of_annotatedMachine? (h : c.annotatedMachine? n = .error e) :
    ∃ key message, e = .invalidKey key message := by
  rw [annotatedMachine?] at h
  split at h
  · next unread =>
    cases h
    rw [Node.machineKey?] at unread
    split at unread
    · cases unread
    · split at unread
      · next failed =>
        cases unread
        obtain ⟨fault, rfl⟩ := ObjectKey.parse_error failed
        exact ⟨_, _, rfl⟩
      · split at unread <;> cases unread
  · cases h
  · cases h

theorem invalidKey_of_machineForNode? (h : c.machineForNode? n = .error e) :
    ∃ key message, e = .invalidKey key message := by
  rcases c.machineForNode?_cases n with ⟨m, -, -, walked⟩ | ⟨k, -, walked⟩ | walked
  · cases h.symm.trans walked
  · exact invalidKey_of_annotatedMachine? (walked.symm.trans h)
  · cases h.symm.trans walked

end Cluster

namespace Directory

/-- The places at which the walk from a Node can fail, one above the other. -/
theorem groupForNode_eq_error {d : Directory} {n : Node} {e : Error}
    (h : d.groupForNode n = .error e) :
    d.cluster.machineForNode? n = .error e ∨
    ∃ m, d.cluster.machineForNode? n = .ok (some m) ∧ (d.cluster.machineOwner? m = .error e ∨
      ∃ ms, d.cluster.machineOwner? m = .ok (some ms) ∧ (d.cluster.rootOf ms = .error e ∨
        ∃ r, d.cluster.rootOf ms = .ok r ∧ r.group? = .error e ∧
          e.isMisconfiguration = false)) := by
  rw [groupForNode] at h
  split at h
  · next failed =>
    cases h
    exact Or.inl failed
  · cases h
  · next m walked =>
    refine Or.inr ⟨m, walked, ?_⟩
    split at h
    · split at h
      · next failed =>
        cases h
        exact Or.inl failed
      · cases h
      · next ms owner =>
        refine Or.inr ⟨ms, owner, ?_⟩
        split at h
        · next failed =>
          cases h
          exact Or.inl failed
        · next r above =>
          split at h
          · cases h
          · next failed =>
            split at h
            · cases h
            · next other =>
              cases h
              exact Or.inr ⟨r, above, failed, by simpa using other⟩
    · cases h

/-- The walk from a Node fails on a text that makes no key and on nothing else. -/
theorem invalidKey_of_groupForNode {d : Directory} {n : Node} {e : Error}
    (h : d.groupForNode n = .error e) : ∃ key message, e = .invalidKey key message := by
  rcases groupForNode_eq_error h with
    failed | ⟨m, -, failed | ⟨ms, -, failed | ⟨r, -, failed, other⟩⟩⟩
  · exact Cluster.invalidKey_of_machineForNode? failed
  · exact invalidKey_of_owner? failed
  · exact invalidKey_of_owner? (Cluster.rootOf_eq_error.mp failed)
  · exact Root.invalidKey_of_group? failed other

section
variable {d : Directory} (reached : d.cluster.Reached) (memory : d.cluster.InMemory)
  (valid : d.settings.validate = .ok ())

section
variable {n : Node} {m : Machine} {ms : MachineSet}
  (walked : d.cluster.machineForNode? n = .ok (some m))
  (visible : d.settings.inScope (m.metadata.ns.getD "") = true)
  (owner : d.cluster.machineOwner? m = .ok (some ms))

include walked visible owner

theorem groupForNode_of_failed {e : Error} (above : d.cluster.rootOf ms = .error e) :
    d.groupForNode n = .error e := by
  rw [groupForNode, walked]
  simp only [if_pos visible, owner, above]

/-- At a root that has an identifier nothing fails any more. -/
theorem groupForNode_of_root {r : Root} (above : d.cluster.rootOf ms = .ok r) {id : GroupId}
    (hid : r.id = .ok id) : d.groupForNode n = .ok r.group?.toOption.join := by
  rw [groupForNode, walked]
  simp only [if_pos visible, owner, above]
  cases grouped : r.group? with
  | ok group => rfl
  | error e =>
    obtain ⟨-, field, message, rfl⟩ := Root.group?_eq_error hid grouped
    rfl

end

include reached memory valid in
/-- What is walked to from a Machine in scope is in scope. -/
theorem covers_of_owner {m : Machine} {ms : MachineSet}
    (visible : d.settings.inScope (m.metadata.ns.getD "") = true)
    (owner : d.cluster.machineOwner? m = .ok (some ms)) : d.settings.Covers ms.metadata := by
  intro ns hs
  have covered := (Settings.covers_iff_inScope valid rfl).mpr visible
  have segment := Settings.scope_isSegment valid hs
  exact ns_of_owner? reached.machineSets.keyed memory.direct.machineSets (covered ns hs)
    segment.1 owner

include reached memory valid in
theorem covers_of_representative {ms : MachineSet} (covered : d.settings.Covers ms.metadata) :
    d.settings.Covers (d.cluster.representative ms).metadata := fun ns hs =>
  Cluster.ns_of_representative reached memory.direct.ownersStay (covered ns hs)
    (Settings.scope_isSegment valid hs).1

include reached memory in
theorem exists_id_of_representative {ms : MachineSet}
    (hms : ms ∈ d.cluster.machineSets.objects) :
    ∃ id, (d.cluster.representative ms).id = .ok id := by
  rcases d.cluster.rootOf_cases ms with found | ⟨-, alone⟩
  · exact (Cluster.isRoot_of_rootOf hms found).exists_id reached memory
  · obtain ⟨key, own⟩ := reached.machineSets.keyed.exists_key memory.machineSets hms
    rw [alone]
    exact ⟨⟨.machineSet, key.ns, key.name⟩, Root.id_eq_ok_iff.mpr ⟨rfl, own⟩⟩

include reached memory valid in
/-- The outcomes of the walk up to a root, each beside that of the look at it. -/
theorem walk_and_look_cases {n : Node} {m : Machine} {ms : MachineSet}
    (walked : d.cluster.machineForNode? n = .ok (some m))
    (visible : d.settings.inScope (m.metadata.ns.getD "") = true)
    (owner : d.cluster.machineOwner? m = .ok (some ms)) {id : GroupId}
    (hid : (d.cluster.representative ms).id = .ok id) :
    (∃ g, d.groupForNode n = .ok (some g) ∧ d.lookup id = .ok (.scalable g)) ∨
    (d.groupForNode n = .ok none ∧ d.lookup id = .ok .notScalable) ∨
    (d.groupForNode n = .ok none ∧
      ∃ resource field message, d.lookup id = .error (.validation resource field message)) ∨
    ∃ key message, d.groupForNode n = .error (.invalidKey key message) ∧
      d.lookup id = .error (.invalidKey key message) := by
  have hms : ms ∈ d.cluster.machineSets.objects := mem_of_owner? owner
  have covered := covers_of_owner reached memory valid visible owner
  rcases d.cluster.rootOf_cases ms with found | ⟨⟨e, failed⟩, alone⟩
  · have root := mem_roots_iff.mpr ⟨Cluster.isRoot_of_rootOf hms found,
      covers_of_representative reached memory valid covered⟩
    have look := (lookup_of_root reached memory valid root hid).2
    have walk := groupForNode_of_root walked visible owner found hid
    cases grouped : (d.cluster.representative ms).group? with
    | error e =>
      obtain ⟨-, field, message, rfl⟩ := Root.group?_eq_error hid grouped
      rw [grouped] at walk
      have wrong := look.trans (lookupRoot_eq_error.mpr grouped)
      exact Or.inr (Or.inr (Or.inl ⟨walk, _, _, _, wrong⟩))
    | ok group =>
      rw [grouped] at walk
      rw [lookupRoot, grouped] at look
      cases group with
      | none => exact Or.inr (Or.inl ⟨walk, look⟩)
      | some g => exact Or.inl ⟨g, walk, look⟩
  · rw [alone] at hid
    have seen := Settings.mem_within_scope.mpr ⟨hms, covered⟩
    have look := (lookup_of_set reached memory valid seen hid).2
    rw [failed] at look
    obtain ⟨key, message, rfl⟩ := invalidKey_of_owner? (Cluster.rootOf_eq_error.mp failed)
    have walk := groupForNode_of_failed walked visible owner failed
    exact Or.inr (Or.inr (Or.inr ⟨key, message, walk, look⟩))

include reached memory valid in
/-- The group of a Node is listed. -/
theorem mem_groups_of_groupForNode {n : Node} {g : NodeGroup}
    (found : d.groupForNode n = .ok (some g)) {gs : List NodeGroup} (h : d.groups = .ok gs) :
    g ∈ gs := by
  obtain ⟨m, -, visible, up, grouped⟩ := groupForNode_eq_some_iff.mp found
  refine (mem_groups_iff h).mpr ⟨up.isRoot, fun ns hs => ?_, grouped⟩
  have covered := (Settings.covers_iff_inScope valid rfl).mpr visible
  exact up.ns_eq reached memory.direct.ownersStay (covered ns hs)
    (Settings.scope_isSegment valid hs).1

end

/-- Where a Node leads to a root, the group of the Node is what a look at the root says. -/
theorem groupForNode_agrees_with_lookup (d : Directory) (reached : d.cluster.Reached)
    (memory : d.cluster.InMemory) (valid : d.settings.validate = .ok ()) (n : Node) :
    (∀ m ms, d.cluster.machineForNode? n = .ok (some m) →
      d.settings.inScope (m.metadata.ns.getD "") = true →
      d.cluster.machineOwner? m = .ok (some ms) →
      ∃ id, (d.cluster.representative ms).id = .ok id ∧ d.settings.inScope id.ns = true ∧
        (∀ g, d.groupForNode n = .ok (some g) ↔ d.lookup id = .ok (.scalable g)) ∧
        (d.groupForNode n = .ok none ↔ d.lookup id = .ok .notScalable ∨
          ∃ resource field message,
            d.lookup id = .error (.validation resource field message))) ∧
    (∀ resource field message,
      d.groupForNode n ≠ .error (.validation resource field message)) ∧
    ∀ g gs, d.groupForNode n = .ok (some g) → d.groups = .ok gs → g ∈ gs := by
  refine ⟨fun m ms walked visible owner => ?_, fun _ _ _ failed => ?_,
    fun g gs found h => mem_groups_of_groupForNode reached memory valid found h⟩
  · obtain ⟨id, hid⟩ := exists_id_of_representative reached memory (mem_of_owner? owner)
    have covered := covers_of_representative reached memory valid
      (covers_of_owner reached memory valid visible owner)
    refine ⟨id, hid, (Settings.covers_iff_inScope valid (Root.ns_of_id hid)).mp covered, ?_⟩
    rcases walk_and_look_cases reached memory valid walked visible owner hid with
      ⟨g, walk, look⟩ | ⟨walk, look⟩ | ⟨walk, _, _, _, look⟩ | ⟨_, _, walk, look⟩
    · simp [walk, look]
    · simp [walk, look]
    · simp [walk, look]
    · simp [walk, look]
  · obtain ⟨_, _, other⟩ := invalidKey_of_groupForNode failed
    cases other

end Directory

namespace Lab

/-- A Node of the small cluster leads over its annotation to `fleet`, which is a listed group. -/
theorem nodeB_has_fleet : directory.cluster.Reached ∧ directory.cluster.InMemory ∧
    directory.settings.validate = .ok () ∧
    directory.cluster.machineForNode? nodeB = .ok (some partMachine) ∧
    directory.cluster.machineOwner? partMachine = .ok (some part) ∧
    directory.groupForNode nodeB = .ok (some fleetGroup) ∧
    fleetGroup ∈ [soloGroup, fleetGroup] := by
  have valid : directory.settings.validate = .ok () := rfl
  obtain ⟨walk, -, listed⟩ :=
    Directory.groupForNode_agrees_with_lookup directory reached inMemory valid nodeB
  obtain ⟨id, hid, -, same, -⟩ := walk partMachine part rfl rfl rfl
  cases hid
  have found : directory.groupForNode nodeB = .ok (some fleetGroup) := (same fleetGroup).mpr rfl
  exact ⟨reached, inMemory, valid, rfl, rfl, found, listed fleetGroup _ found groups_eq⟩

end Lab
end NodeGroups
