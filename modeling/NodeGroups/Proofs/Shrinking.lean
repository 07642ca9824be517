import NodeGroups.Proofs.Matching
import NodeGroups.Resize

/-!
# Lowering the size of a group

A size is lowered no further than to the number of members. A Node that has the group counts as
long as its Machine is a member, by its own provider ID or by that of the Node it refers to
(`Directory.memberNodes`), and then no two Nodes are the same member. The other Nodes that have
the group are missed: their Machines are no members yet, so that the size can go below the number
of all Nodes of the group.
-/
namespace NodeGroups

/-- What is assigned to elements of a list, to no two the same, makes the list no longer than
the one it is assigned from. -/
theorem length_le_of_assigned {α β : Type} (R : α → β → Prop) {l : List α} {k : List β}
    (nodup : l.Nodup) (total : ∀ a ∈ l, ∃ b ∈ k, R a b)
    (apart : ∀ {a b x}, R a x → R b x → a = b) : l.length ≤ k.length := by
  classical
  induction l generalizing k with
  | nil => exact Nat.zero_le _
  | cons a rest ih =>
    obtain ⟨fresh, nodup⟩ := List.nodup_cons.mp nodup
    obtain ⟨x, hx, assigned⟩ := total a List.mem_cons_self
    -- What the first element takes is left to no other one.
    have others : ∀ b ∈ rest, ∃ y ∈ k.erase x, R b y := by
      intro b hb
      obtain ⟨y, hy, also⟩ := total b (List.mem_cons_of_mem a hb)
      have ne : y ≠ x := by
        rintro rfl
        exact fresh (apart assigned also ▸ hb)
      exact ⟨y, (List.mem_erase_of_ne ne).mpr hy, also⟩
    have fewer := ih nodup others
    have shorter := List.length_erase_of_mem hx
    have pos := List.length_pos_of_mem hx
    rw [List.length_cons]
    omega

namespace NodeGroup

variable {g : NodeGroup} {r : Resize}

theorem setSize_eq_ok_iff_contains {n : Int32} :
    g.setSize n = .ok r ↔ g.bounds.contains n = true ∧ r = ⟨g.id, n⟩ := by
  rw [setSize]
  split
  · next within => simp [within, eq_comm]
  · next outside => simp [outside]

theorem decreaseTargetSize_eq_ok_iff {c : Cluster} {delta : Int32} :
    g.decreaseTargetSize c delta = .ok r ↔
      delta < 0 ∧ shifted? g.root.replicas delta = some r.replicas ∧
        ((g.members c).length : Int) ≤ r.replicas.toInt ∧
        g.bounds.contains r.replicas = true ∧ r.group = g.id := by
  rw [decreaseTargetSize, size_eq]
  by_cases nonneg : 0 ≤ delta
  · have up : ¬ delta < 0 := Int32.not_lt.mpr nonneg
    simp [if_pos nonneg, up]
  · have down : delta < 0 := Int32.not_le.mp nonneg
    rw [if_neg nonneg]
    cases hs : shifted? g.root.replicas delta with
    | none => simp
    | some target =>
      simp only [down, true_and, Option.some.injEq]
      split
      · next few =>
        simp only [reduceCtorEq, false_iff]
        rintro ⟨rfl, enough, -⟩
        omega
      · next enough =>
        rw [setSize_eq_ok_iff_contains]
        constructor
        · rintro ⟨within, rfl⟩
          exact ⟨rfl, Int.not_lt.mp enough, within, rfl⟩
        · rintro ⟨rfl, -, within, same⟩
          rw [← same]
          exact ⟨within, rfl⟩

end NodeGroup

/-- The Machine has a provider ID, or the Node that it leads to has one. -/
def Cluster.isIdentified (c : Cluster) (m : Machine) : Bool :=
  m.providerId?.isSome || (c.nodeForMachine? m).any fun n => n.providerId?.isSome

@[simp]
theorem Cluster.isSome_instanceOf? (c : Cluster) (m : Machine) :
    (c.instanceOf? m).isSome = c.isIdentified m := by
  rw [instanceOf?, isIdentified, nodeForMachine?]
  cases m.providerId? with
  | some id => rfl
  | none =>
    cases m.nodeName? with
    | none => rfl
    | some name =>
      cases hn : c.nodeByName? name with
      | none => simp [hn]
      | some n => cases hp : n.providerId? <;> simp [hn, hp]

namespace Directory

/-- The cached Nodes that have the group. -/
def groupNodes (d : Directory) (g : NodeGroup) : List Node :=
  d.cluster.nodes.objects.filter fun n =>
    match d.groupForNode n with
    | .ok (some found) => found = g
    | _ => false

/-- Those of them whose Machines are members. -/
def memberNodes (d : Directory) (g : NodeGroup) : List Node :=
  (d.groupNodes g).filter fun n =>
    match d.cluster.machineForNode? n with
    | .ok (some m) => d.cluster.isIdentified m
    | _ => false

section
variable {d : Directory} {g : NodeGroup} {n : Node}

theorem mem_groupNodes_iff :
    n ∈ d.groupNodes g ↔ n ∈ d.cluster.nodes.objects ∧ d.groupForNode n = .ok (some g) := by
  rw [groupNodes, List.mem_filter]
  refine and_congr_right fun _ => ?_
  cases d.groupForNode n with
  | error e => simp
  | ok found => cases found <;> simp

theorem mem_memberNodes_iff : n ∈ d.memberNodes g ↔ n ∈ d.groupNodes g ∧
    ∃ m, d.cluster.machineForNode? n = .ok (some m) ∧ d.cluster.isIdentified m = true := by
  rw [memberNodes, List.mem_filter]
  refine and_congr_right fun _ => ?_
  cases d.cluster.machineForNode? n with
  | error e => simp
  | ok found => cases found <;> simp

end

section
variable {d : Directory} {L : Node → Machine → Prop} (reached : d.cluster.Reached)
  (placed : d.cluster.Placed) (distinct : d.cluster.DistinctIds)
  (matching : d.cluster.Matching L) {gs : List NodeGroup} (h : d.groups = .ok gs)

include reached placed distinct matching h in
theorem memberNodes_length_le {g : NodeGroup} (hg : g ∈ gs) :
    (d.memberNodes g).length ≤ (g.members d.cluster).length := by
  have nodup : (d.memberNodes g).Nodup := (reached.nodes.keyed.nodup.filter _).filter _
  rw [NodeGroup.members, List.length_filterMap_eq_countP, List.countP_eq_length_filter]
  refine length_le_of_assigned L nodup (fun n hn => ?_) matching.oneNode
  obtain ⟨has, m, walked, identified⟩ := mem_memberNodes_iff.mp hn
  obtain ⟨cached, found⟩ := mem_groupNodes_iff.mp has
  obtain ⟨machine, again, -, above, -⟩ := groupForNode_eq_some_iff.mp found
  cases walked.symm.trans again
  have hm := Cluster.mem_of_machineForNode? walked
  have below := (mem_machines_of_groups reached placed h hg).mpr ⟨hm, above⟩
  have member : m ∈ (g.machines d.cluster).filter fun m => (d.cluster.instanceOf? m).isSome :=
    List.mem_filter.mpr ⟨below, by simp [identified]⟩
  exact ⟨m, member,
    Cluster.machineForNode?_matched reached placed distinct matching cached walked⟩

end

/-- Lowering the size of a group gives up no Node that counts. -/
theorem decrease_keeps_members (d : Directory) (L : Node → Machine → Prop)
    (reached : d.cluster.Reached) (placed : d.cluster.Placed)
    (distinct : d.cluster.DistinctIds) (matching : d.cluster.Matching L)
    (gs : List NodeGroup) (h : d.groups = .ok gs) (g : NodeGroup) (hg : g ∈ gs)
    (delta : Int32) (r : Resize) (lowered : g.decreaseTargetSize d.cluster delta = .ok r) :
    ((d.memberNodes g).length : Int) ≤ r.replicas.toInt := by
  have count := memberNodes_length_le reached placed distinct matching h hg
  have kept := (NodeGroup.decreaseTargetSize_eq_ok_iff.mp lowered).2.2.1
  omega

end Directory

namespace Lab

/-- In the small cluster `solo` goes down to its one member. -/
theorem solo_lowered : directory.cluster.Reached ∧ directory.cluster.Placed ∧
    directory.cluster.DistinctIds ∧ (directory.cluster.Matching fun n m => (n, m) ∈ pairs) ∧
    directory.groups = .ok [soloGroup, fleetGroup] ∧
    soloGroup.decreaseTargetSize directory.cluster (-1) = .ok ⟨soloGroup.id, 1⟩ ∧
    ((directory.memberNodes soloGroup).length : Int) ≤ (1 : Int32).toInt := by
  have machines : soloGroup.machines directory.cluster = [soloMachine] :=
    NodeGroup.machines_of_ascending rfl (by decide)
  have lowered : soloGroup.decreaseTargetSize directory.cluster (-1) =
      .ok ⟨soloGroup.id, 1⟩ := by
    refine NodeGroup.decreaseTargetSize_eq_ok_iff.mpr ⟨by decide, rfl, ?_, rfl, rfl⟩
    rw [NodeGroup.members, machines]
    decide
  exact ⟨reached, placed, distinct, matching, groups_eq, lowered,
    Directory.decrease_keeps_members directory (fun n m => (n, m) ∈ pairs) reached placed
      distinct matching _ groups_eq soloGroup (by decide) (-1) _ lowered⟩

end Lab

/-! A cluster with one group of two replicas, whose Nodes refer to their Machines already while
the Machines are still without provider IDs: one says nothing of its Node, and the other refers
to a Node that has no provider ID either. -/
namespace Joining

def pool : MachineSet where
  metadata := Lab.metadata "pool" "u1" [] [(minSizeEntry, "0"), (maxSizeEntry, "3")]
  clusterName := "lab"
  declared := some 2

def machineA : Machine where
  metadata := Lab.metadata "pool-a" "u2" [Lab.owner "MachineSet" "pool" "u1"] []
  clusterName := "lab"
  declaredProviderId := none
  status := none

def machineB : Machine where
  metadata := Lab.metadata "pool-b" "u3" [Lab.owner "MachineSet" "pool" "u1"] []
  clusterName := "lab"
  declaredProviderId := none
  status := some ⟨some ⟨none, none, some "Node", some "node-b", none, none, none⟩, none⟩

def nodeA : Node where
  metadata := { Metadata.empty with
    name := some "node-a"
    annotations := some [(machineEntry, "lab/pool-a")] }
  declaredProviderId := some "id-a"

def nodeB : Node where
  metadata := { Metadata.empty with
    name := some "node-b"
    annotations := some [(machineEntry, "lab/pool-b")] }
  declaredProviderId := none

def directory : Directory where
  cluster := ⟨⟨.folding, [nodeA, nodeB]⟩, ⟨.folding, [machineA, machineB]⟩,
    ⟨.folding, [pool]⟩, .empty .folding⟩
  settings := Settings.default

def pairs : List (Node × Machine) := [(nodeA, machineA), (nodeB, machineB)]

def group : NodeGroup := ⟨⟨.machineSet, "lab", "pool"⟩, .machineSet pool, ⟨0, 3⟩⟩

/-- The size can go below the number of Nodes that have the group. -/
theorem lowered_below_nodes : directory.cluster.Reached ∧ directory.cluster.Placed ∧
    directory.cluster.BareNodes ∧ directory.cluster.DistinctIds ∧
    (directory.cluster.Matching fun n m => (n, m) ∈ pairs) ∧
    directory.groups = .ok [group] ∧
    group.decreaseTargetSize directory.cluster (-2) = .ok ⟨group.id, 0⟩ ∧
    (0 : Int32).toInt < (directory.groupNodes group).length := by
  have reached : directory.cluster.Reached :=
    ⟨Cache.Keyed.reached (by decide), Cache.Keyed.reached (by decide),
      Cache.Keyed.reached (by decide), Cache.Keyed.reached (by decide)⟩
  have candidates : directory.candidates = .ok [.machineSet pool] := rfl
  have machines : group.machines directory.cluster = [machineA, machineB] :=
    NodeGroup.machines_of_ascending rfl (by decide)
  refine ⟨reached, ⟨by decide, by decide, by decide⟩, by decide, by decide,
    .of_pairs (by decide) (by decide) (by decide), ?_, ?_, ?_⟩
  · exact Directory.groups_of_ascending candidates rfl (by decide)
  · refine NodeGroup.decreaseTargetSize_eq_ok_iff.mpr ⟨by decide, rfl, ?_, rfl, rfl⟩
    rw [NodeGroup.members, machines]
    decide
  · have nodes : directory.groupNodes group = [nodeA, nodeB] := rfl
    rw [nodes]
    decide

end Joining
end NodeGroups
