import NodeGroups.Proofs.Ancestry
import NodeGroups.Proofs.Matching

/-!
# A scope is a filter

A directory that is confined to a namespace says what the one without a scope says of that
namespace, and of the others nothing. A listing asks for the namespace of the objects, a look
for that of the identifier and the walk from a Node for that of the Machine. The three agree, as
all that is above a Machine is in one namespace with it. The errors of other namespaces are not
seen either: a scoped listing can go well where the one without a scope fails.
-/
namespace NodeGroups

namespace Directory

/-- The directory of the same cluster with another scope. -/
def scopedTo (d : Directory) (ns : Option String) : Directory :=
  { d with settings := { d.settings with ns := ns } }

section
variable {d : Directory} {s : String}

theorem covers_scopedTo_none (m : Metadata) : (d.scopedTo none).settings.Covers m :=
  Settings.covers_of_unscoped rfl m

theorem inScope_scopedTo_iff {ns : String} :
    (d.scopedTo (some s)).settings.inScope ns = true ↔ ns = s := by
  rw [Settings.inScope_iff]
  exact ⟨fun visible => (visible s rfl).symm, fun same scope hs =>
    (Option.some.inj hs).symm.trans same.symm⟩

/-- A listing that goes well without a scope goes well within each. -/
theorem exists_groups_scopedTo {gs : List NodeGroup} (h : (d.scopedTo none).groups = .ok gs) :
    ∃ ks, (d.scopedTo (some s)).groups = .ok ks := by
  obtain ⟨followed, grouped⟩ := exists_groups_iff.mp ⟨gs, h⟩
  refine exists_groups_iff.mpr ⟨fun ms hms => followed ms ?_, fun r hr => grouped r ?_⟩
  · have cached := (Settings.mem_within_scope.mp hms).1
    exact Settings.mem_within_scope.mpr ⟨cached, covers_scopedTo_none _⟩
  · have root := (mem_roots_iff.mp hr).1
    exact mem_roots_iff.mpr ⟨root, covers_scopedTo_none _⟩

theorem mem_groups_scopedTo (valid : (d.scopedTo (some s)).settings.validate = .ok ())
    {gs ks : List NodeGroup} (h : (d.scopedTo none).groups = .ok gs)
    (hs : (d.scopedTo (some s)).groups = .ok ks) {g : NodeGroup} :
    g ∈ ks ↔ g ∈ gs ∧ g.id.ns = s := by
  rw [mem_groups_iff hs, mem_groups_iff h]
  have covered (grouped : g.root.group? = .ok (some g)) :
      (d.scopedTo (some s)).settings.Covers g.root.metadata ↔ g.id.ns = s := by
    have key := Root.ns_of_id (Root.id_of_group? grouped).2
    rw [Settings.covers_iff_inScope valid key, inScope_scopedTo_iff]
  constructor
  · rintro ⟨root, within, grouped⟩
    exact ⟨⟨root, covers_scopedTo_none _, grouped⟩, (covered grouped).mp within⟩
  · rintro ⟨⟨root, -, grouped⟩, same⟩
    exact ⟨root, (covered grouped).mpr same, grouped⟩

/-- Both listings are in the order of the identifiers, which leaves only one list. -/
theorem groups_scopedTo (reached : d.cluster.Reached) (direct : d.cluster.Direct)
    (valid : (d.scopedTo (some s)).settings.validate = .ok ()) {gs : List NodeGroup}
    (h : (d.scopedTo none).groups = .ok gs) :
    (d.scopedTo (some s)).groups = .ok (gs.filter fun g => g.id.ns = s) := by
  have ascending (scope : Option String) {l : List NodeGroup}
      (hl : (d.scopedTo scope).groups = .ok l) : l.Pairwise fun a b => a.id.Before b.id :=
    groups_ascending (d := d.scopedTo scope) reached direct.ownersStay hl
  obtain ⟨ks, hs⟩ := exists_groups_scopedTo (s := s) h
  have same : ks = gs.filter fun g => g.id.ns = s := by
    refine eq_of_ascending (ascending _ hs) ((ascending _ h).filter _) fun g => ?_
    rw [mem_groups_scopedTo valid h hs, List.mem_filter, decide_eq_true_iff]
  rw [hs, same]

theorem lookup_scopedTo (d : Directory) (s : String) (id : GroupId) :
    (d.scopedTo (some s)).lookup id =
      if id.ns = s then (d.scopedTo none).lookup id else .ok .notFound := by
  by_cases same : id.ns = s
  · have visible : (d.scopedTo (some s)).settings.inScope id.ns = true :=
      inScope_scopedTo_iff.mpr same
    have all : (d.scopedTo none).settings.inScope id.ns = true := rfl
    rw [if_pos same, lookup, if_pos visible, lookup, if_pos all]
    rfl
  · have hidden : ¬ (d.scopedTo (some s)).settings.inScope id.ns = true :=
      mt inScope_scopedTo_iff.mp same
    rw [if_neg same, lookup, if_neg hidden]

/-- The settings matter to the walk from a Node in whether they let its Machine be seen. -/
theorem groupForNode_congr {d k : Directory} {n : Node} (same : d.cluster = k.cluster)
    (agree : ∀ m, k.cluster.machineForNode? n = .ok (some m) →
      d.settings.inScope (m.metadata.ns.getD "") = k.settings.inScope (m.metadata.ns.getD "")) :
    d.groupForNode n = k.groupForNode n := by
  rw [groupForNode, groupForNode, same]
  cases walked : k.cluster.machineForNode? n with
  | error e => rfl
  | ok found =>
    cases found with
    | none => rfl
    | some m => simp only [agree m walked]

/-- From a Machine of another namespace a scoped walk goes no further. -/
theorem groupForNode_scopedTo (d : Directory) (s : String) (n : Node) :
    (d.scopedTo (some s)).groupForNode n = (d.scopedTo none).groupForNode n ∨
    (d.scopedTo (some s)).groupForNode n = .ok none ∧
      ∃ m, d.cluster.machineForNode? n = .ok (some m) ∧ m.metadata.ns.getD "" ≠ s := by
  by_cases other : ∃ m, d.cluster.machineForNode? n = .ok (some m) ∧ m.metadata.ns.getD "" ≠ s
  · obtain ⟨m, walked, apart⟩ := other
    exact Or.inr ⟨groupForNode_of_hidden walked (mt inScope_scopedTo_iff.mp apart), m, walked,
      apart⟩
  · refine Or.inl (groupForNode_congr rfl fun m walked => ?_)
    have same : m.metadata.ns.getD "" = s := by
      by_contra apart
      exact other ⟨m, walked, apart⟩
    exact inScope_scopedTo_iff.mpr same

/-- A group that a Node has without a scope is in the namespace of the Node's Machine. -/
theorem ns_of_groupForNode (reached : d.cluster.Reached) (direct : d.cluster.Direct)
    (housed : ∀ m ∈ d.cluster.machines.objects, ∃ ns, m.metadata.ns = some ns ∧ ns ≠ "")
    {n : Node} {g : NodeGroup} (found : d.groupForNode n = .ok (some g)) :
    ∃ m, d.cluster.machineForNode? n = .ok (some m) ∧
      d.settings.inScope (m.metadata.ns.getD "") = true ∧ m.metadata.ns.getD "" = g.id.ns := by
  obtain ⟨m, walked, visible, up, grouped⟩ := groupForNode_eq_some_iff.mp found
  obtain ⟨ns, hns, filled⟩ := housed m (Cluster.mem_of_machineForNode? walked)
  have above := up.ns_eq reached direct.ownersStay hns filled
  refine ⟨m, walked, visible, ?_⟩
  rw [← Root.ns_of_id (Root.id_of_group? grouped).2, above, hns]

end

/-- To set a scope is to keep what is in its namespace, for all three questions. -/
theorem scope_is_filter (d : Directory) (reached : d.cluster.Reached)
    (memory : d.cluster.InMemory)
    (housed : ∀ m ∈ d.cluster.machines.objects, ∃ ns, m.metadata.ns = some ns ∧ ns ≠ "")
    (s : String) (valid : (d.scopedTo (some s)).settings.validate = .ok ()) :
    ((∀ gs, (d.scopedTo none).groups = .ok gs →
        (d.scopedTo (some s)).groups = .ok (gs.filter fun g => g.id.ns = s)) ∧
      ((∃ e, (d.scopedTo (some s)).groups = .error e) →
        ∃ e, (d.scopedTo none).groups = .error e)) ∧
    (∀ id, (d.scopedTo (some s)).lookup id =
      if id.ns = s then (d.scopedTo none).lookup id else .ok .notFound) ∧
    ∀ n,
      (∀ g, (d.scopedTo none).groupForNode n = .ok (some g) →
        (d.scopedTo (some s)).groupForNode n =
          if g.id.ns = s then .ok (some g) else .ok none) ∧
      ((d.scopedTo none).groupForNode n = .ok none →
        (d.scopedTo (some s)).groupForNode n = .ok none) ∧
      ∀ e, (d.scopedTo (some s)).groupForNode n = .error e →
        (d.scopedTo none).groupForNode n = .error e := by
  refine ⟨⟨fun gs h => groups_scopedTo reached memory.direct valid h, ?_⟩,
    lookup_scopedTo d s, fun n => ?_⟩
  · rintro ⟨e, failed⟩
    cases h : (d.scopedTo none).groups with
    | error other => exact ⟨other, rfl⟩
    | ok gs =>
      obtain ⟨ks, went⟩ := exists_groups_scopedTo (s := s) h
      cases failed.symm.trans went
  · have walks := groupForNode_scopedTo d s n
    refine ⟨fun g found => ?_, fun alone => ?_, fun e failed => ?_⟩
    · obtain ⟨m, walked, -, ns⟩ :=
        ns_of_groupForNode (d := d.scopedTo none) reached memory.direct housed found
      rcases walks with same | ⟨none, k, again, apart⟩
      · rw [same, found]
        -- The scoped walk came to the group as well, so that its Machine is in the scope.
        obtain ⟨k, again, visible, nsk⟩ := ns_of_groupForNode (d := d.scopedTo (some s)) reached
          memory.direct housed (same.trans found)
        rw [if_pos (nsk ▸ inScope_scopedTo_iff.mp visible)]
      · cases walked.symm.trans again
        rw [none, if_neg (ns ▸ apart)]
    · rcases walks with same | ⟨none, -⟩
      · exact same.trans alone
      · exact none
    · rcases walks with same | ⟨none, -⟩
      · exact same.symm.trans failed
      · cases none.symm.trans failed

end Directory

/-! The small cluster beside a second namespace, `annex`, with a set of the same name. -/
namespace Annex

def solo : MachineSet where
  metadata := { Lab.solo.metadata with ns := some "annex", uid := some "u6" }
  clusterName := "annex"
  declared := some 1

def directory : Directory where
  cluster := { Lab.directory.cluster with
    machineSets := ⟨.folding, [solo, Lab.part, Lab.solo]⟩ }
  settings := Settings.default

def group : NodeGroup := ⟨⟨.machineSet, "annex", "solo"⟩, .machineSet solo, ⟨1, 3⟩⟩

/-- Within `annex` the one group is listed, and what is in `lab` is found no more. -/
theorem annex_alone : directory.cluster.Reached ∧ directory.cluster.InMemory ∧
    (∀ m ∈ directory.cluster.machines.objects, ∃ ns, m.metadata.ns = some ns ∧ ns ≠ "") ∧
    (directory.scopedTo (some "annex")).settings.validate = .ok () ∧
    (directory.scopedTo none).groups = .ok [group, Lab.soloGroup, Lab.fleetGroup] ∧
    (directory.scopedTo (some "annex")).groups = .ok [group] ∧
    (directory.scopedTo (some "annex")).lookup Lab.soloGroup.id = .ok .notFound ∧
    (directory.scopedTo (some "annex")).groupForNode Lab.nodeB = .ok none := by
  have reached : directory.cluster.Reached :=
    ⟨Lab.reached.nodes, Lab.reached.machines, Cache.Keyed.reached (by decide),
      Lab.reached.machineDeployments⟩
  have memory : directory.cluster.InMemory := ⟨rfl, rfl, rfl, rfl⟩
  have housed : ∀ m ∈ directory.cluster.machines.objects,
      ∃ ns, m.metadata.ns = some ns ∧ ns ≠ "" := by
    intro m hm
    obtain ⟨ns, hns, segment⟩ := (Lab.placed.machines m hm).ns
    exact ⟨ns, hns, segment.1⟩
  have valid : (directory.scopedTo (some "annex")).settings.validate = .ok () := rfl
  have all : (directory.scopedTo none).groups =
      .ok [group, Lab.soloGroup, Lab.fleetGroup] := by
    have candidates : (directory.scopedTo none).candidates =
        .ok [.machineSet solo, .machineSet Lab.solo, .machineDeployment Lab.fleet] := rfl
    exact Directory.groups_of_ascending candidates rfl (by decide)
  obtain ⟨⟨listed, -⟩, looked, walked⟩ :=
    Directory.scope_is_filter directory reached memory housed "annex" valid
  exact ⟨reached, memory, housed, valid, all, listed _ all, looked _,
    (walked Lab.nodeB).1 Lab.fleetGroup rfl⟩

end Annex
end NodeGroups
