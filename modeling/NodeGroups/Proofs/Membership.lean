import NodeGroups.Proofs.Ancestry
import NodeGroups.Proofs.Shrinking

/-!
# The members of a group and the Nodes that have it

A group finds its members from its Machines, over the provider ID or the Machine's reference to
a Node. A Node finds its group from the other end, over the provider ID or the Node's annotation.
Each walk is exact for the two signals that it follows. So the two say the same of a Node whose
provider ID is on its Machine, and of the others as long as the reference and the annotation are
there together. In between, a Node can have a group that does not count it yet, and a group can
have a member that is not led back to it.
-/
namespace NodeGroups

namespace Cluster

section
variable {c : Cluster} (distinct : c.DistinctIds)

include distinct in
theorem nodeByProviderId?_eq_some_iff {id : String} (filled : id ≠ "") {n : Node} :
    c.nodeByProviderId? id = some n ↔ n ∈ c.nodes.objects ∧ n.providerId? = some id := by
  rw [nodeByProviderId?, if_neg filled, Cache.within_none]
  exact distinct.nodes.find?_eq_some_iff

include distinct in
/-- From a Machine the shared ID is followed, and else the Machine's own reference. -/
theorem nodeForMachine?_eq_some_iff (reached : c.Reached) (bare : c.BareNodes) {m : Machine}
    {n : Node} : c.nodeForMachine? m = some n ↔
      n ∈ c.nodes.objects ∧ (n.SharesId m ∨ m.RefersTo n) := by
  constructor
  · exact nodeForMachine?_eq_some reached bare
  · rintro ⟨hn, ⟨id, node, machine⟩ | ⟨without, name, named, own⟩⟩
    · have filled := (filled_eq_some_iff.mp machine).2
      rw [nodeForMachine?, machine]
      exact (nodeByProviderId?_eq_some_iff distinct filled).mpr ⟨hn, node⟩
    · rw [nodeForMachine?, without]
      simp only [named, Option.bind_some]
      exact (nodeByName?_eq_some_iff reached bare).mpr ⟨hn, own⟩

include distinct in
/-- From a Node the shared ID is followed, and else the Node's own annotation. -/
theorem machineForNode?_eq_some_iff (reached : c.Reached) (placed : c.Placed)
    {L : Node → Machine → Prop} (matching : c.Matching L) {n : Node}
    (hn : n ∈ c.nodes.objects) {m : Machine} : c.machineForNode? n = .ok (some m) ↔
      m ∈ c.machines.objects ∧ (n.SharesId m ∨ n.Names m) := by
  constructor
  · exact machineForNode?_eq_some reached placed distinct hn
  rintro ⟨hm, link⟩
  rw [machineForNode?]
  cases own : n.providerId? with
  | none =>
    rcases link with ⟨id, carried, -⟩ | named
    · cases own.symm.trans carried
    · exact (annotatedMachine?_eq_some_iff reached placed).mpr ⟨hm, named⟩
  | some id =>
    have filled := (filled_eq_some_iff.mp own).2
    simp only [machineByProviderId?, if_neg filled, Cache.within_none]
    cases carrier : c.machines.objects.find? fun k => k.providerId? = some id with
    | some k =>
      -- A Machine with the Node's ID is the partner, to which the annotation leads as well.
      obtain ⟨hk, carried⟩ := distinct.machines.find?_eq_some_iff.mp carrier
      have shared : n.SharesId k := ⟨id, own, carried⟩
      have linked : Linked n m := link.elim (·.linked) (·.linked)
      rw [matching.eq_of_linked hn hk hm shared.linked linked]
    | none =>
      rcases link with ⟨other, also, carried⟩ | named
      · cases own.symm.trans also
        cases carrier.symm.trans (distinct.machines.find?_eq_some_iff.mpr ⟨hm, carried⟩)
      · simp only [(nodeByProviderId?_eq_some_iff distinct filled).mpr ⟨hn, own⟩]
        exact (annotatedMachine?_eq_some_iff reached placed).mpr ⟨hm, named⟩

end

end Cluster

namespace NodeGroup

/-- A member of the group is known by the name of the Node. -/
def HasMember (g : NodeGroup) (c : Cluster) (n : Node) : Prop :=
  ∃ i ∈ g.members c, ∃ name, n.metadata.name = some name ∧ i.nodeName = some name

/-- A Node with a provider ID is a member when one of the Machines leads to it. -/
theorem hasMember_iff {g : NodeGroup} {c : Cluster} (reached : c.Reached) (bare : c.BareNodes)
    {n : Node} (hn : n ∈ c.nodes.objects) {id : String} (own : n.providerId? = some id) :
    g.HasMember c n ↔ ∃ m ∈ g.machines c, c.nodeForMachine? m = some n := by
  constructor
  · rintro ⟨i, hi, name, named, shown⟩
    obtain ⟨m, hm, made⟩ := List.mem_filterMap.mp hi
    have shows := ((Cluster.instanceOf?_eq_some_iff reached).mp made).1
    obtain ⟨k, found, display⟩ := Option.map_eq_some_iff.mp (shows.symm.trans shown)
    have hk := (Cluster.nodeForMachine?_eq_some reached bare found).1
    obtain ⟨other, known, same⟩ := Cluster.exists_node_name reached hk
    cases same.symm.trans display
    cases Cluster.eq_of_node_name reached bare hk hn known named
    exact ⟨m, hm, found⟩
  · rintro ⟨m, hm, found⟩
    obtain ⟨name, named, display⟩ := Cluster.exists_node_name reached hn
    have shows : some name = (c.nodeForMachine? m).map fun n => n.metadata.displayName := by
      rw [found, Option.map_some, display]
    have made : ∃ key, c.instanceOf? m = some ⟨key, some name⟩ := by
      cases machine : m.providerId? with
      | some key =>
        exact ⟨key, (Cluster.instanceOf?_eq_some_iff reached).mpr
          ⟨shows, Or.inl machine⟩⟩
      | none =>
        exact ⟨id, (Cluster.instanceOf?_eq_some_iff reached).mpr
          ⟨shows, Or.inr ⟨machine, n, found, own⟩⟩⟩
    obtain ⟨key, made⟩ := made
    exact ⟨_, List.mem_filterMap.mpr ⟨m, hm, made⟩, name, named, rfl⟩

end NodeGroup

namespace Directory

/-- A Node has a listed group when it leads to one of the group's Machines. -/
theorem groupForNode_iff_machine {d : Directory} (reached : d.cluster.Reached)
    (placed : d.cluster.Placed) {gs : List NodeGroup} (h : d.groups = .ok gs) {g : NodeGroup}
    (hg : g ∈ gs) {n : Node} : d.groupForNode n = .ok (some g) ↔
      ∃ m ∈ g.machines d.cluster, d.cluster.machineForNode? n = .ok (some m) := by
  rw [groupForNode_eq_some_iff]
  constructor
  · rintro ⟨m, walked, -, up, -⟩
    have hm := Cluster.mem_of_machineForNode? walked
    exact ⟨m, (mem_machines_of_groups reached placed h hg).mpr ⟨hm, up⟩, walked⟩
  · rintro ⟨m, below, walked⟩
    obtain ⟨hm, up⟩ := (mem_machines_of_groups reached placed h hg).mp below
    obtain ⟨-, covered, grouped⟩ := (mem_groups_iff h).mp hg
    obtain ⟨ns, hns, segment⟩ := (placed.machines m hm).ns
    have above := up.ns_eq reached placed.direct.ownersStay hns segment.1
    have visible : d.settings.inScope (m.metadata.ns.getD "") = true := by
      refine Settings.inScope_iff.mpr fun scope hs => ?_
      rw [hns]
      exact Option.some.inj ((covered scope hs).symm.trans above)
    exact ⟨m, walked, visible, up, grouped⟩

section
variable {d : Directory} (reached : d.cluster.Reached) (placed : d.cluster.Placed)
  (distinct : d.cluster.DistinctIds) {gs : List NodeGroup} (h : d.groups = .ok gs)
  {g : NodeGroup} (hg : g ∈ gs) {n : Node} (hn : n ∈ d.cluster.nodes.objects)

include reached placed distinct h hg hn in
/-- The signals that lead from a Node to its group. -/
theorem groupForNode_iff_signal {L : Node → Machine → Prop} (matching : d.cluster.Matching L) :
    d.groupForNode n = .ok (some g) ↔
      ∃ m ∈ g.machines d.cluster, n.SharesId m ∨ n.Names m := by
  rw [groupForNode_iff_machine reached placed h hg]
  refine exists_congr fun m => and_congr_right fun below => ?_
  rw [Cluster.machineForNode?_eq_some_iff distinct reached placed matching hn]
  exact and_iff_right (cached_of_mem_machines reached placed h hg below)

include reached distinct hn in
/-- The signals that lead from a group to its members. -/
theorem hasMember_iff_signal (bare : d.cluster.BareNodes) {id : String}
    (own : n.providerId? = some id) : g.HasMember d.cluster n ↔
      ∃ m ∈ g.machines d.cluster, n.SharesId m ∨ m.RefersTo n := by
  rw [NodeGroup.hasMember_iff reached bare hn own]
  refine exists_congr fun m => and_congr_right fun _ => ?_
  rw [Cluster.nodeForMachine?_eq_some_iff distinct reached bare]
  exact and_iff_right hn

end

/-- A Node has a group and is a member of it together, except where a Machine without the
Node's provider ID is linked to the Node from one side only. -/
theorem members_coincide_iff (d : Directory) (L : Node → Machine → Prop)
    (reached : d.cluster.Reached) (placed : d.cluster.Placed) (bare : d.cluster.BareNodes)
    (distinct : d.cluster.DistinctIds) (matching : d.cluster.Matching L)
    (gs : List NodeGroup) (h : d.groups = .ok gs) (g : NodeGroup) (hg : g ∈ gs)
    (n : Node) (hn : n ∈ d.cluster.nodes.objects) (id : String)
    (own : n.providerId? = some id) :
    (d.groupForNode n = .ok (some g) ↔
      ∃ m ∈ g.machines d.cluster, n.SharesId m ∨ n.Names m) ∧
    (g.HasMember d.cluster n ↔
      ∃ m ∈ g.machines d.cluster, n.SharesId m ∨ m.RefersTo n) ∧
    ((d.groupForNode n = .ok (some g) ↔ g.HasMember d.cluster n) ↔
      ∀ m ∈ g.machines d.cluster, ¬ n.SharesId m → (n.Names m ↔ m.RefersTo n)) := by
  have upward := groupForNode_iff_signal reached placed distinct h hg hn matching
  have downward : g.HasMember d.cluster n ↔ _ := hasMember_iff_signal reached distinct hn bare own
  refine ⟨upward, downward, ?_⟩
  rw [upward, downward]
  constructor
  · intro agree m below apart
    -- Whatever the other walk finds is linked to the Node, and so it is the same Machine.
    have partner {k : Machine} (hk : k ∈ g.machines d.cluster) (link : Linked n k)
        (first : Linked n m) : k = m :=
      matching.eq_of_linked hn (cached_of_mem_machines reached placed h hg hk)
        (cached_of_mem_machines reached placed h hg below) link first
    constructor
    · intro named
      obtain ⟨k, hk, shared | refers⟩ := agree.mp ⟨m, below, Or.inr named⟩
      · exact absurd (partner hk shared.linked named.linked ▸ shared) apart
      · exact partner hk refers.linked named.linked ▸ refers
    · intro refers
      obtain ⟨k, hk, shared | named⟩ := agree.mpr ⟨m, below, Or.inr refers⟩
      · exact absurd (partner hk shared.linked refers.linked ▸ shared) apart
      · exact partner hk named.linked refers.linked ▸ named
  · intro together
    refine exists_congr fun m => and_congr_right fun below => ?_
    by_cases shared : n.SharesId m
    · simp only [shared, true_or]
    · rw [together m below shared]

end Directory

namespace Lab

/-- In the small cluster the Machine of `fleet` has no provider ID, but the reference and the
annotation are both there. -/
theorem nodeB_counts : directory.cluster.Reached ∧ directory.cluster.Placed ∧
    directory.cluster.BareNodes ∧ directory.cluster.DistinctIds ∧
    (directory.cluster.Matching fun n m => (n, m) ∈ pairs) ∧
    directory.groups = .ok [soloGroup, fleetGroup] ∧
    nodeB ∈ directory.cluster.nodes.objects ∧ nodeB.providerId? = some "id-b" ∧
    ¬ nodeB.SharesId partMachine ∧ directory.groupForNode nodeB = .ok (some fleetGroup) ∧
    fleetGroup.HasMember directory.cluster nodeB := by
  have below : partMachine ∈ fleetGroup.machines directory.cluster := by
    rw [fleetMachines_eq]
    exact List.mem_cons_self
  have named : nodeB.Names partMachine := ⟨⟨"lab", "part-a"⟩, rfl, rfl⟩
  have refers : partMachine.RefersTo nodeB := ⟨rfl, "node-b", rfl, rfl⟩
  have apart : ¬ nodeB.SharesId partMachine := by
    rintro ⟨id, -, none⟩
    cases none
  obtain ⟨upward, -, coincide⟩ := Directory.members_coincide_iff directory
    (fun n m => (n, m) ∈ pairs) reached placed bare distinct matching _ groups_eq fleetGroup
    (by decide) nodeB (by decide) "id-b" rfl
  have found := upward.mpr ⟨partMachine, below, Or.inr named⟩
  have together : ∀ m ∈ fleetGroup.machines directory.cluster, ¬ nodeB.SharesId m →
      (nodeB.Names m ↔ m.RefersTo nodeB) := by
    intro m hm _
    rw [fleetMachines_eq, List.mem_singleton] at hm
    subst hm
    exact iff_of_true named refers
  exact ⟨reached, placed, bare, distinct, matching, groups_eq, by decide, rfl, apart, found,
    (coincide.mpr together).mp found⟩

end Lab

/-! The cluster of joining Nodes at another moment: the Node that `machineB` refers to has its
provider ID, but the annotation is not written. -/
namespace Joining

def unmarkedB : Node where
  metadata := { Metadata.empty with name := some "node-b" }
  declaredProviderId := some "id-b"

def halfway : Directory :=
  { directory with
    cluster := { directory.cluster with nodes := ⟨.folding, [nodeA, unmarkedB]⟩ } }

def halfwayPairs : List (Node × Machine) := [(nodeA, machineA), (unmarkedB, machineB)]

/-- One Node has the group and is no member of it, the other one is a member and has no group. -/
theorem members_and_nodes_differ : halfway.cluster.Reached ∧ halfway.cluster.InMemory ∧
    halfway.cluster.Placed ∧ halfway.cluster.BareNodes ∧ halfway.cluster.DistinctIds ∧
    (halfway.cluster.Matching fun n m => (n, m) ∈ halfwayPairs) ∧
    halfway.groups = .ok [group] ∧
    (nodeA ∈ halfway.cluster.nodes.objects ∧ nodeA.providerId? = some "id-a" ∧
      halfway.groupForNode nodeA = .ok (some group) ∧ ¬ group.HasMember halfway.cluster nodeA) ∧
    (unmarkedB ∈ halfway.cluster.nodes.objects ∧ unmarkedB.providerId? = some "id-b" ∧
      halfway.groupForNode unmarkedB = .ok none ∧
      group.HasMember halfway.cluster unmarkedB) := by
  have filled : halfway.cluster.Reached :=
    ⟨Cache.Keyed.reached (by decide), Cache.Keyed.reached (by decide),
      Cache.Keyed.reached (by decide), Cache.Keyed.reached (by decide)⟩
  have candidates : halfway.candidates = .ok [.machineSet pool] := rfl
  have machines : group.machines halfway.cluster = [machineA, machineB] :=
    NodeGroup.machines_of_ascending rfl (by decide)
  have members : group.members halfway.cluster = [⟨"id-b", some "node-b"⟩] := by
    rw [NodeGroup.members, machines]
    rfl
  refine ⟨filled, ⟨rfl, rfl, rfl, rfl⟩, ⟨by decide, by decide, by decide⟩, by decide,
    by decide, .of_pairs (by decide) (by decide) (by decide),
    Directory.groups_of_ascending candidates rfl (by decide), ?_, ?_⟩
  · refine ⟨by decide, rfl, rfl, ?_⟩
    rintro ⟨i, hi, name, own, shown⟩
    rw [members, List.mem_singleton] at hi
    subst hi
    cases own
    exact absurd shown (by decide)
  · refine ⟨by decide, rfl, rfl, ⟨"id-b", some "node-b"⟩, ?_, "node-b", rfl, rfl⟩
    rw [members]
    exact List.mem_cons_self

end Joining
end NodeGroups
