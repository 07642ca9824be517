import NodeGroups.Proofs.NodeLookup
import NodeGroups.Proofs.OwnerKeys
import NodeGroups.Proofs.Signals

/-!
# What can fail when a Node is asked about

The way from a Node to its group passes an annotation, two owner references and the annotated sizes
of a root. Wrong sizes are no failure here, so that only texts that make no key can be one: the
annotation of the Node, or of a Node with its provider ID, and the references. All else has an
answer. Without a Machine, without a MachineSet above it and without usable sizes it is that there
is no group. A MachineSet without a MachineDeployment above it is asked for its own sizes.
-/
namespace NodeGroups

namespace Cluster

/-- The annotation is malformed on the Node or on a cached one with its provider ID. -/
def Misannotated (c : Cluster) (n : Node) : Prop :=
  ∃ k, (k = n ∨ k ∈ c.nodes.objects ∧ ∃ id, n.providerId? = some id ∧ k.providerId? = some id) ∧
    k.Malformed

/-- No cached Machine carries the Node's provider ID, and the annotation that is followed instead is
missing or names no cached one. -/
structure Unmanaged (c : Cluster) (n : Node) : Prop where
  unclaimed : ∀ m ∈ c.machines.objects, ¬ n.SharesId m
  unnamed : ∀ k, c.guide? n = some k → k.Unannotated ∨
    ∃ key, k.PointsAt key ∧ ∀ m ∈ c.machines.objects, m.metadata.key ≠ .ok key

/-- The Node's Machine, or the MachineSet above it, has an owner reference that makes no key. -/
def OwnersUnread (c : Cluster) (n : Node) : Prop :=
  ∃ m, c.machineForNode? n = .ok (some m) ∧ (m.metadata.UnreadOwner "MachineSet" ∨
    ∃ ms, c.machineOwner? m = .ok (some ms) ∧ ms.metadata.UnreadOwner "MachineDeployment")

section
variable {c : Cluster} (reached : c.Reached) (memory : c.InMemory) {n : Node}

include reached memory

theorem misannotated_of_error {e : Error} (h : c.machineForNode? n = .error e) :
    c.Misannotated n := by
  rcases c.machineForNode?_cases n with ⟨m, -, -, walked⟩ | ⟨k, alike, walked⟩ | walked
  · cases h.symm.trans walked
  · have resolved := annotatedMachine?_resolves reached.machines.keyed memory.machines k
    exact ⟨k, alike, resolved.failed.mp ⟨e, walked.symm.trans h⟩⟩
  · cases h.symm.trans walked

theorem machineForNode?_eq_none_iff : c.machineForNode? n = .ok none ↔ c.Unmanaged n := by
  have named (k : Node) := annotatedMachine?_resolves reached.machines.keyed memory.machines k
  rw [machineForNode?_eq]
  cases carried : c.carrier? n with
  | some m =>
    obtain ⟨hm, shared⟩ := carrier?_eq_some carried
    have claimed : ¬ c.Unmanaged n := fun unmanaged => unmanaged.unclaimed m hm shared
    simp [claimed]
  | none =>
    have unclaimed := carrier?_eq_none_iff.mp carried
    cases followed : c.guide? n with
    | none =>
      have unmanaged : c.Unmanaged n := by
        refine ⟨unclaimed, fun k also => ?_⟩
        cases followed.symm.trans also
      simp [unmanaged]
    | some k =>
      simp only [Option.elim]
      rw [(named k).nowhere]
      constructor
      · intro lost
        refine ⟨unclaimed, fun other also => ?_⟩
        cases followed.symm.trans also
        exact lost
      · intro unmanaged
        exact unmanaged.unnamed k followed

end

/-- A MachineSet whose MachineDeployment cannot be told stands on its own. -/
theorem rootOf_of_unresolved {c : Cluster} (reached : c.Reached) (memory : c.InMemory)
    {ms : MachineSet} (lost : c.machineDeployments.Unresolved ms.metadata) :
    c.rootOf ms = .ok (.machineSet ms) := by
  have keyed := reached.machineDeployments.keyed
  have nobody : c.machineSetOwner? ms = .ok none :=
    (owner?_none_iff_unresolved keyed memory.machineDeployments).mpr lost
  exact rootOf_eq_machineSet.mpr ⟨rfl, nobody⟩

end Cluster

namespace Directory

section
variable {d : Directory} {n : Node}

theorem groupForNode_of_unowned {m : Machine}
    (walked : d.cluster.machineForNode? n = .ok (some m))
    (unowned : d.cluster.machineOwner? m = .ok none) : d.groupForNode n = .ok none := by
  rw [groupForNode, walked]
  simp only [unowned, ite_self]

variable (reached : d.cluster.Reached) (memory : d.cluster.InMemory)

include reached memory

/-- The root fails with nothing but its sizes, which is overlooked. -/
theorem keys_at_fault {e : Error} (h : d.groupForNode n = .error e) :
    d.cluster.Misannotated n ∨ d.cluster.OwnersUnread n := by
  rcases groupForNode_eq_error h with failed | ⟨m, walked, failed | ⟨ms, owner, above⟩⟩
  · exact Or.inl (Cluster.misannotated_of_error reached memory failed)
  · have unread : m.metadata.UnreadOwner "MachineSet" := owner?_error_iff_unread.mp ⟨e, failed⟩
    exact Or.inr ⟨m, walked, Or.inl unread⟩
  · rcases above with failed | ⟨r, found, failed, other⟩
    · have unread : ms.metadata.UnreadOwner "MachineDeployment" :=
        owner?_error_iff_unread.mp ⟨e, Cluster.rootOf_eq_error.mp failed⟩
      exact Or.inr ⟨m, walked, Or.inr ⟨ms, owner, unread⟩⟩
    · have root : d.cluster.IsRoot r := Cluster.isRoot_of_rootOf (mem_of_owner? owner) found
      obtain ⟨id, hid⟩ := root.exists_id reached memory
      obtain ⟨-, field, message, rfl⟩ := Root.group?_eq_error hid failed
      cases other

section
variable {m : Machine} {ms : MachineSet} {r : Root}
  (walked : d.cluster.machineForNode? n = .ok (some m))
  (owner : d.cluster.machineOwner? m = .ok (some ms)) (above : d.cluster.rootOf ms = .ok r)

include walked owner above

/-- In scope, the group of a Node is what the sizes of the root make. -/
theorem groupForNode_of_qualified (visible : d.settings.inScope (m.metadata.ns.getD "") = true)
    {b : Bounds} (qualifies : r.Qualifies b) :
    ∃ id, r.id = .ok id ∧ d.groupForNode n = .ok (some ⟨id, r, b⟩) := by
  have root : d.cluster.IsRoot r := Cluster.isRoot_of_rootOf (mem_of_owner? owner) above
  obtain ⟨id, hid⟩ := root.exists_id reached memory
  have grouped : r.group? = .ok (some ⟨id, r, b⟩) :=
    Root.group?_eq_some_iff.mpr ⟨id, b, hid, qualifies, rfl⟩
  exact ⟨id, hid, groupForNode_eq_some_iff.mpr ⟨m, walked, visible, ⟨ms, owner, above⟩, grouped⟩⟩

theorem groupForNode_of_unqualified (unusable : ∀ b, ¬ r.Qualifies b) :
    d.groupForNode n = .ok none := by
  by_cases visible : d.settings.inScope (m.metadata.ns.getD "") = true
  · have root : d.cluster.IsRoot r := Cluster.isRoot_of_rootOf (mem_of_owner? owner) above
    obtain ⟨id, hid⟩ := root.exists_id reached memory
    rw [groupForNode_of_root walked visible owner above hid]
    cases grouped : r.group? with
    | error e => rfl
    | ok group =>
      cases group with
      | none => rfl
      | some g =>
        obtain ⟨-, b, -, qualifies, -⟩ := Root.group?_eq_some_iff.mp grouped
        exact absurd qualifies (unusable b)
  · exact groupForNode_of_hidden walked visible

end

end

/-- References that make no key apart, the group of a Node can be told unless an annotation is
malformed. A Node that is unmanaged, or has no MachineSet above its Machine, or no usable sizes at
its root, is without a group, and so is one whose Machine is out of scope. -/
theorem group_told_unless_malformed (d : Directory) (reached : d.cluster.Reached)
    (memory : d.cluster.InMemory) (n : Node) :
    ((∃ e, d.groupForNode n = .error e) →
      d.cluster.Misannotated n ∨ d.cluster.OwnersUnread n) ∧
    (d.cluster.Unmanaged n → d.groupForNode n = .ok none) ∧
    ∀ m, d.cluster.machineForNode? n = .ok (some m) →
      (¬ d.settings.inScope (m.metadata.ns.getD "") = true → d.groupForNode n = .ok none) ∧
      (d.cluster.machineSets.Unresolved m.metadata → d.groupForNode n = .ok none) ∧
      ∀ ms, d.cluster.machineOwner? m = .ok (some ms) →
        (d.cluster.machineDeployments.Unresolved ms.metadata →
          d.cluster.rootOf ms = .ok (.machineSet ms)) ∧
        ∀ r, d.cluster.rootOf ms = .ok r →
          ((∀ b, ¬ r.Qualifies b) → d.groupForNode n = .ok none) ∧
          ∀ b, d.settings.inScope (m.metadata.ns.getD "") = true → r.Qualifies b →
            ∃ id, r.id = .ok id ∧ d.groupForNode n = .ok (some ⟨id, r, b⟩) := by
  refine ⟨?_, fun unmanaged => ?_, fun m walked => ⟨groupForNode_of_hidden walked, fun lost => ?_,
    fun ms owner => ⟨Cluster.rootOf_of_unresolved reached memory, fun r above => ⟨?_, ?_⟩⟩⟩⟩
  · rintro ⟨e, failed⟩
    exact keys_at_fault reached memory failed
  · rw [groupForNode, (Cluster.machineForNode?_eq_none_iff reached memory).mpr unmanaged]
  · have unowned : d.cluster.machineOwner? m = .ok none :=
      (owner?_none_iff_unresolved reached.machineSets.keyed memory.machineSets).mpr lost
    exact groupForNode_of_unowned walked unowned
  · exact groupForNode_of_unqualified reached memory walked owner above
  · intro b visible qualifies
    exact groupForNode_of_qualified reached memory walked owner above visible qualifies

end Directory

namespace Lab

def slashedNode : Node :=
  { nodeB with metadata := { nodeB.metadata with
      annotations := some [(machineEntry, "lab/part/a")] } }

/-- The small cluster where the annotation of `node-b` has two slashes. -/
def misannotated : Directory :=
  { directory with cluster :=
      { directory.cluster with nodes := ⟨.folding, [nodeA, slashedNode]⟩ } }

/-- In the small cluster the sizes of `fleet` make the group of `node-b`; with two slashes in the
annotation of the Node it cannot be told. -/
theorem nodeB_told_until_slashed : directory.cluster.Reached ∧ directory.cluster.InMemory ∧
    directory.groupForNode nodeB = .ok (some fleetGroup) ∧
    misannotated.cluster.Reached ∧ misannotated.cluster.InMemory ∧
    (∃ e, misannotated.groupForNode slashedNode = .error e) ∧
    misannotated.cluster.Misannotated slashedNode := by
  have own : fleetGroup.root.group? = .ok (some fleetGroup) := rfl
  have qualifies := (Root.group?_own_iff.mp own).1
  have above : directory.cluster.rootOf part = .ok fleetGroup.root := rfl
  obtain ⟨-, -, walk⟩ :=
    Directory.group_told_unless_malformed directory reached inMemory nodeB
  obtain ⟨id, hid, grouped⟩ :=
    (((walk partMachine rfl).2.2 part rfl).2 fleetGroup.root above).2 _ rfl qualifies
  cases hid
  have filled : misannotated.cluster.nodes.Reached := Cache.Keyed.reached (by decide)
  have there : misannotated.cluster.Reached := { reached with nodes := filled }
  have memory : misannotated.cluster.InMemory := ⟨rfl, rfl, rfl, rfl⟩
  have failed : ∃ e, misannotated.groupForNode slashedNode = .error e := ⟨_, rfl⟩
  obtain ⟨faults, -, -⟩ :=
    Directory.group_told_unless_malformed misannotated there memory slashedNode
  refine ⟨reached, inMemory, grouped, there, memory, failed, ?_⟩
  rcases faults failed with annotated | ⟨m, walked, -⟩
  · exact annotated
  · cases walked

def sizedPart : MachineSet :=
  { part with metadata := { part.metadata with
      annotations := some [(minSizeEntry, "1"), (maxSizeEntry, "3")] } }

/-- The small cluster without the MachineDeployment that `part` refers to. -/
def orphaned : Directory :=
  { directory with cluster :=
      { directory.cluster with
        machineSets := ⟨.folding, [sizedPart, solo]⟩
        machineDeployments := ⟨.folding, []⟩ } }

def slashedMachine : Machine :=
  { partMachine with metadata := { partMachine.metadata with
      ownerReferences := some [owner "MachineSet" "a/b" "u2"] } }

/-- The small cluster where the owner reference of the Machine of `node-b` has a slash in it. -/
def misowned : Directory :=
  { directory with cluster :=
      { directory.cluster with machines := ⟨.folding, [slashedMachine, soloMachine]⟩ } }

/-- A MachineSet that has lost its MachineDeployment gives a Node its group, and a reference that
makes no key is an error, though no annotation is malformed. -/
theorem orphan_grouped_and_reference_fails :
    (orphaned.cluster.Reached ∧ orphaned.cluster.InMemory ∧
      orphaned.settings.validate = .ok () ∧ nodeB ∈ orphaned.cluster.nodes.objects ∧
      orphaned.cluster.machineForNode? nodeB = .ok (some partMachine) ∧
      orphaned.cluster.machineOwner? partMachine = .ok (some sizedPart) ∧
      sizedPart.metadata.ownerOfKind? "MachineDeployment" =
        some (owner "MachineDeployment" "fleet" "u3") ∧
      orphaned.cluster.machineDeployments.Unresolved sizedPart.metadata ∧
      orphaned.groupForNode nodeB =
        .ok (some ⟨⟨.machineSet, "lab", "part"⟩, .machineSet sizedPart, ⟨1, 3⟩⟩)) ∧
    misowned.cluster.Reached ∧ misowned.cluster.InMemory ∧
      misowned.settings.validate = .ok () ∧ nodeB ∈ misowned.cluster.nodes.objects ∧
      ¬ misowned.cluster.Misannotated nodeB ∧
      ∃ e, misowned.groupForNode nodeB = .error e := by
  have sets : orphaned.cluster.machineSets.Reached := Cache.Keyed.reached (by decide)
  have deployments : orphaned.cluster.machineDeployments.Reached := Cache.Keyed.reached (by decide)
  have machines : misowned.cluster.machines.Reached := Cache.Keyed.reached (by decide)
  have lost : orphaned.cluster.machineDeployments.Unresolved sizedPart.metadata :=
    (owner?_none_iff_unresolved deployments.keyed rfl).mp rfl
  have sound : ∀ k ∈ misowned.cluster.nodes.objects, ¬ k.Malformed := by
    intro k hk wrong
    obtain ⟨e, failed⟩ := Node.machineKey?_eq_error_iff.mpr wrong
    rcases List.mem_pair.mp hk with rfl | rfl
    · cases failed
    · cases failed
  refine ⟨⟨{ reached with machineSets := sets, machineDeployments := deployments },
    ⟨rfl, rfl, rfl, rfl⟩, rfl, by decide, rfl, rfl, rfl, lost, rfl⟩,
    { reached with machines := machines }, ⟨rfl, rfl, rfl, rfl⟩, rfl, by decide, ?_, _, rfl⟩
  rintro ⟨k, rfl | ⟨hk, -⟩, wrong⟩
  · exact sound nodeB (by decide) wrong
  · exact sound k hk wrong

end Lab
end NodeGroups
