import NodeGroups.Proofs.Listing

/-!
# What a listing is

Said without the functions that make it: the candidates are the MachineSets in scope that no
cached MachineDeployment represents and all MachineDeployments in scope. A listing fails when
an owner reference in scope cannot be followed, else when a candidate is misconfigured, and
else has the group of every candidate that qualifies and nothing more.
-/
namespace NodeGroups

/-- The first reference to a MachineDeployment has a name that is empty or holds a slash. -/
def Metadata.HasBrokenOwner (m : Metadata) : Prop :=
  ∃ reference, m.ownerOfKind? "MachineDeployment" = some reference ∧
    (reference.name = "" ∨ '/' ∈ reference.name.toList)

/-- The first reference of the MachineSet to a MachineDeployment names one that is cached in
its namespace with the same uid. -/
def Cluster.Represented (c : Cluster) (ms : MachineSet) : Prop :=
  ∃ reference, ms.metadata.ownerOfKind? "MachineDeployment" = some reference ∧
    ∃ md ∈ c.machineDeployments.objects, md.metadata.ns = ms.metadata.ns ∧
      md.metadata.name = some reference.name ∧ md.metadata.uid = some reference.uid

namespace Directory

def Candidate (d : Directory) : Root → Prop
  | .machineSet ms => ms ∈ d.cluster.machineSets.objects ∧ d.settings.Covers ms.metadata ∧
      ¬ d.cluster.Represented ms
  | .machineDeployment md => md ∈ d.cluster.machineDeployments.objects ∧
      d.settings.Covers md.metadata

/-- Some MachineSet in scope has an owner reference that cannot be followed. -/
def Broken (d : Directory) : Prop :=
  ∃ ms ∈ d.cluster.machineSets.objects, d.settings.Covers ms.metadata ∧
    ms.metadata.HasBrokenOwner

theorem not_isSegment_iff {s : String} :
    ¬ Text.IsSegment s ↔ s = "" ∨ '/' ∈ s.toList := by
  rw [Text.IsSegment, not_and_or, not_not, not_not]

section
variable {d : Directory} (reached : d.cluster.Reached) (placed : d.cluster.Placed)

include placed in
theorem hasBrokenOwner_iff {ms : MachineSet} (hms : ms ∈ d.cluster.machineSets.objects) :
    ms.metadata.HasBrokenOwner ↔ ∃ e, d.cluster.rootOf ms = .error e := by
  obtain ⟨ns, hns, segment⟩ := (placed.machineSets ms hms).ns
  have failed : (∃ e, owner? ms.metadata d.cluster.machineDeployments = .error e) ↔ _ :=
    owner?_error_iff hns segment
  simp only [not_isSegment_iff] at failed
  simp only [Cluster.rootOf_eq_error]
  exact failed.symm

include reached placed in
theorem represented_iff {ms : MachineSet} (hms : ms ∈ d.cluster.machineSets.objects) :
    d.cluster.Represented ms ↔ ∃ md, d.cluster.rootOf ms = .ok (.machineDeployment md) := by
  simp only [Cluster.rootOf_eq_machineDeployment,
    Cluster.machineSetOwner?_eq_some_iff reached placed hms, owns_iff]
  constructor
  · rintro ⟨reference, first, md, hmd, ns, name, uid⟩
    exact ⟨md, hmd, reference, first, ns.symm, name, uid⟩
  · rintro ⟨md, hmd, reference, first, ns, name, uid⟩
    exact ⟨reference, first, md, hmd, ns.symm, name, uid⟩

include placed in
theorem broken_iff : d.Broken ↔ ∃ ms ∈ d.scopedSets, ∃ e, d.cluster.rootOf ms = .error e := by
  constructor
  · rintro ⟨ms, hms, covered, broken⟩
    exact ⟨ms, Settings.mem_within_scope.mpr ⟨hms, covered⟩,
      (hasBrokenOwner_iff placed hms).mp broken⟩
  · rintro ⟨ms, hms, failed⟩
    obtain ⟨hms, covered⟩ := Settings.mem_within_scope.mp hms
    exact ⟨ms, hms, covered, (hasBrokenOwner_iff placed hms).mpr failed⟩

include reached placed in
/-- Where all owners can be followed, the candidates are what the listing goes through. -/
theorem candidate_iff (followed : ¬ d.Broken) {r : Root} : d.Candidate r ↔ r ∈ d.roots := by
  rw [mem_roots_iff]
  cases r with
  | machineDeployment md => exact Iff.rfl
  | machineSet ms =>
    simp only [Candidate, Cluster.IsRoot, Root.metadata]
    constructor
    · rintro ⟨hms, covered, alone⟩
      rw [represented_iff reached placed hms] at alone
      cases hr : d.cluster.rootOf ms with
      | error e =>
        refine absurd ((broken_iff placed).mpr ⟨ms, ?_, e, hr⟩) followed
        exact Settings.mem_within_scope.mpr ⟨hms, covered⟩
      | ok root =>
        cases root with
        | machineSet other =>
          obtain ⟨rfl, -⟩ := Cluster.rootOf_eq_machineSet.mp hr
          exact ⟨⟨hms, rfl⟩, covered⟩
        | machineDeployment md => exact absurd ⟨md, hr⟩ alone
    · rintro ⟨⟨hms, own⟩, covered⟩
      refine ⟨hms, covered, ?_⟩
      rw [represented_iff reached placed hms]
      rintro ⟨md, other⟩
      cases own.symm.trans other

include placed in
theorem id_of_isRoot {r : Root} (h : d.cluster.IsRoot r) : ∃ id, r.id = .ok id := by
  obtain ⟨ns, name, -, -, -, -, key⟩ := (h.placed placed).key_eq_ok
  exact ⟨⟨r.kind, ns, name⟩, Root.id_eq_ok_iff.mpr ⟨rfl, key⟩⟩

include reached placed in
/-- Of the three outcomes a listing has the one that is due. -/
theorem groups_outcome :
    (d.Broken ∧ ∃ key message, d.groups = .error (.invalidKey key message)) ∨
    (¬ d.Broken ∧ ∃ r id field message, d.Candidate r ∧ r.Misconfigured ∧ r.id = .ok id ∧
      d.groups = .error (.validation id.text field message)) ∨
    (¬ d.Broken ∧ (∀ r, d.Candidate r → ¬ r.Misconfigured) ∧ ∃ gs, d.groups = .ok gs) := by
  rcases d.groups_cases with ⟨ms, hms, e, failed, stopped⟩ | ⟨followed, rest⟩
  · obtain ⟨key, message, rfl⟩ := invalidKey_of_owner? (Cluster.rootOf_eq_error.mp failed)
    exact Or.inl ⟨(broken_iff placed).mpr ⟨ms, hms, _, failed⟩, _, _, stopped⟩
  have sound : ¬ d.Broken := by
    rw [broken_iff placed]
    rintro ⟨ms, hms, e, failed⟩
    obtain ⟨r, went⟩ := followed ms hms
    cases failed.symm.trans went
  rcases rest with ⟨r, hr, e, failed, stopped⟩ | ⟨found, hf, went⟩
  · obtain ⟨id, hid⟩ := id_of_isRoot placed (mem_roots_iff.mp hr).1
    obtain ⟨misconfigured, field, message, rfl⟩ := Root.group?_eq_error hid failed
    have candidate := (candidate_iff reached placed sound).mpr hr
    exact Or.inr (Or.inl ⟨sound, r, id, some field, message, candidate, misconfigured, hid,
      stopped⟩)
  · refine Or.inr (Or.inr ⟨sound, fun r candidate misconfigured => ?_, _, went⟩)
    obtain ⟨e, failed⟩ := Root.group?_of_misconfigured misconfigured
    obtain ⟨b, -, grouped⟩ :=
      exists_ok_of_each hf ((candidate_iff reached placed sound).mp candidate)
    cases failed.symm.trans grouped

include reached placed in
theorem mem_groups_iff_candidate (sound : ¬ d.Broken) {gs : List NodeGroup}
    (h : d.groups = .ok gs) {g : NodeGroup} : g ∈ gs ↔
      d.Candidate g.root ∧ g.root.Qualifies g.bounds ∧ g.root.id = .ok g.id := by
  rw [mem_groups_iff h, ← and_assoc, ← mem_roots_iff, candidate_iff reached placed sound,
    Root.group?_own_iff]

end

/-- A listing is exact and all or nothing. -/
theorem enumeration_exact (d : Directory) (reached : d.cluster.Reached)
    (placed : d.cluster.Placed) :
    ((∃ e, d.groups = .error e) ↔ d.Broken ∨ ∃ r, d.Candidate r ∧ r.Misconfigured) ∧
    (d.Broken → ∃ key message, d.groups = .error (.invalidKey key message)) ∧
    (¬ d.Broken → (∃ r, d.Candidate r ∧ r.Misconfigured) →
      ∃ r id field message, d.Candidate r ∧ r.Misconfigured ∧ r.id = .ok id ∧
        d.groups = .error (.validation id.text field message)) ∧
    (¬ d.Broken → (∀ r, d.Candidate r → ¬ r.Misconfigured) →
      ∃ gs, d.groups = .ok gs ∧ (gs.Pairwise fun a b => a.id.Before b.id) ∧
        ∀ g, g ∈ gs ↔
          d.Candidate g.root ∧ g.root.Qualifies g.bounds ∧ g.root.id = .ok g.id) := by
  rcases groups_outcome reached placed with ⟨broken, key, message, stopped⟩ |
    ⟨sound, r, id, field, message, candidate, misconfigured, hid, stopped⟩ |
    ⟨sound, clean, gs, went⟩
  · refine ⟨⟨fun _ => Or.inl broken, fun _ => ⟨_, stopped⟩⟩, fun _ => ⟨key, message, stopped⟩,
      fun sound => absurd broken sound, fun sound => absurd broken sound⟩
  · have wrong : ∃ r, d.Candidate r ∧ r.Misconfigured := ⟨r, candidate, misconfigured⟩
    refine ⟨⟨fun _ => Or.inr wrong, fun _ => ⟨_, stopped⟩⟩, fun broken => absurd broken sound,
      fun _ _ => ?_, fun _ clean => absurd misconfigured (clean r candidate)⟩
    exact ⟨r, id, field, message, candidate, misconfigured, hid, stopped⟩
  · have right : ¬ ∃ r, d.Candidate r ∧ r.Misconfigured := fun ⟨r, candidate, misconfigured⟩ =>
      clean r candidate misconfigured
    refine ⟨⟨fun ⟨e, failed⟩ => ?_, fun wrong => absurd wrong (not_or.mpr ⟨sound, right⟩)⟩,
      fun broken => absurd broken sound, fun _ wrong => absurd wrong right, fun _ _ => ?_⟩
    · cases failed.symm.trans went
    · exact ⟨gs, went, groups_ascending reached placed.direct.ownersStay went,
        fun g => mem_groups_iff_candidate reached placed sound went⟩

end Directory

/-! A small cluster in the namespace `lab`: the set `solo` is a group of its own, and `part` is
represented by the deployment `fleet`, so that its own sizes do not matter. -/
namespace Lab

def metadata (name uid : String) (owners : List OwnerReference) (annotations : StringMap) :
    Metadata :=
  { Metadata.empty with
    name := some name
    ns := some "lab"
    uid := some uid
    annotations := some annotations
    ownerReferences := some owners }

def owner (kind name uid : String) : OwnerReference :=
  ⟨machineApiVersion, kind, name, uid, some true, none⟩

def solo : MachineSet where
  metadata := metadata "solo" "u1" [] [(minSizeEntry, "1"), (maxSizeEntry, "3")]
  clusterName := "lab"
  declared := some 2

def part : MachineSet where
  metadata := metadata "part" "u2" [owner "MachineDeployment" "fleet" "u3"]
    [(minSizeEntry, "few"), (maxSizeEntry, "1")]
  clusterName := "lab"
  declared := some 1

def fleet : MachineDeployment where
  metadata := metadata "fleet" "u3" [] [(minSizeEntry, "0"), (maxSizeEntry, "05")]
  clusterName := "lab"
  declared := some 1

def soloMachine : Machine where
  metadata := metadata "solo-a" "u4" [owner "MachineSet" "solo" "u1"] []
  clusterName := "lab"
  declaredProviderId := some "id-a"
  status := none

def partMachine : Machine where
  metadata := metadata "part-a" "u5" [owner "MachineSet" "part" "u2"] []
  clusterName := "lab"
  declaredProviderId := none
  status := some ⟨some ⟨none, none, some "Node", some "node-b", none, none, none⟩, none⟩

def nodeA : Node where
  metadata := { Metadata.empty with name := some "node-a" }
  declaredProviderId := some "id-a"

def nodeB : Node where
  metadata := { Metadata.empty with
    name := some "node-b"
    annotations := some [(machineEntry, "lab/part-a")] }
  declaredProviderId := some "id-b"

def directory : Directory where
  cluster := ⟨⟨.folding, [nodeA, nodeB]⟩, ⟨.folding, [partMachine, soloMachine]⟩,
    ⟨.folding, [part, solo]⟩, ⟨.folding, [fleet]⟩⟩
  settings := Settings.default

theorem reached : directory.cluster.Reached :=
  ⟨Cache.Keyed.reached (by decide), Cache.Keyed.reached (by decide),
    Cache.Keyed.reached (by decide), Cache.Keyed.reached (by decide)⟩

theorem placed : directory.cluster.Placed := ⟨by decide, by decide, by decide⟩

def soloGroup : NodeGroup := ⟨⟨.machineSet, "lab", "solo"⟩, .machineSet solo, ⟨1, 3⟩⟩

def fleetGroup : NodeGroup :=
  ⟨⟨.machineDeployment, "lab", "fleet"⟩, .machineDeployment fleet, ⟨0, 5⟩⟩

theorem groups_eq : directory.groups = .ok [soloGroup, fleetGroup] := by
  have candidates : directory.candidates = .ok [.machineSet solo, .machineDeployment fleet] := rfl
  have found : each Root.group? [.machineSet solo, .machineDeployment fleet] =
      .ok [some soloGroup, some fleetGroup] := rfl
  exact Directory.groups_of_ascending candidates found (by decide)

/-- Nothing is wrong in the small cluster, whatever the sizes of `part` say. -/
theorem enumeration_sound : directory.cluster.Reached ∧ directory.cluster.Placed ∧
    directory.groups = .ok [soloGroup, fleetGroup] ∧
    ¬ (directory.Broken ∨ ∃ r, directory.Candidate r ∧ r.Misconfigured) := by
  refine ⟨reached, placed, groups_eq, fun wrong => ?_⟩
  obtain ⟨e, failed⟩ := (Directory.enumeration_exact directory reached placed).1.mpr wrong
  cases failed.symm.trans groups_eq

end Lab
end NodeGroups
