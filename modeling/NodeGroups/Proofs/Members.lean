import NodeGroups.Proofs.Matching

/-!
# Members and the Nodes of their Machines

The member of a Machine is made over the Machine's own signals, and the Node that a Machine leads to
is looked for over the same signals by another walk. Whatever signals are missing, empty or lead
nowhere, the two agree: a Machine counts when it or its Node has a provider ID, and the member is
named after that Node and has its provider ID. Nothing is asked of the objects of the cluster.
-/
namespace NodeGroups

namespace Cluster

section
variable {c : Cluster} {m : Machine} {n : Node}

/-- The Node that a Machine leads to is cached, and what it is shown as is its name. -/
theorem named_of_nodeForMachine? (reached : c.Reached) (h : c.nodeForMachine? m = some n) :
    n ∈ c.nodes.objects ∧ n.metadata.name = some n.metadata.displayName := by
  have cached : n ∈ c.nodes.objects := by
    rw [nodeForMachine?] at h
    split at h
    · exact (nodeByProviderId?_eq_some h).1
    · obtain ⟨name, -, found⟩ := Option.bind_eq_some_iff.mp h
      exact (nodeByName?_eq_some reached found).1
  obtain ⟨name, named, shown⟩ := exists_node_name reached cached
  exact ⟨cached, shown ▸ named⟩

/-- A member has the provider ID of the Node that its Machine leads to. -/
theorem providerId?_of_instance (reached : c.Reached) {i : Instance}
    (made : c.instanceOf? m = some i) (h : c.nodeForMachine? m = some n) :
    n.providerId? = some i.id := by
  rcases ((instanceOf?_eq_some_iff reached).mp made).2 with own | ⟨-, k, found, carried⟩
  · -- A Machine with an ID leads to no Node but one that has it too.
    rw [nodeForMachine?, own] at h
    exact (nodeByProviderId?_eq_some h).2
  · cases h.symm.trans found
    exact carried

/-- A member that is named is named after the Node of its Machine. -/
theorem nodeForMachine?_of_named (reached : c.Reached) {i : Instance}
    (made : c.instanceOf? m = some i) {name : String} (named : i.nodeName = some name) :
    ∃ n, c.nodeForMachine? m = some n ∧ n.metadata.name = some name := by
  have shown := ((instanceOf?_eq_some_iff reached).mp made).1
  obtain ⟨n, found, same⟩ := Option.map_eq_some_iff.mp (shown.symm.trans named)
  exact ⟨n, found, same ▸ (named_of_nodeForMachine? reached found).2⟩

end

end Cluster

namespace NodeGroup

/-- The members are told by the Machines and the Nodes that these lead to, in the order of the
Machines. Where Nodes are in no namespace, the name of a member is that of one Node. -/
theorem members_told_by_nodes (g : NodeGroup) (c : Cluster) (reached : c.Reached) :
    (g.members c = (g.machines c).filterMap fun m =>
      (m.providerId?.or ((c.nodeForMachine? m).bind Node.providerId?)).map fun id =>
        ⟨id, (c.nodeForMachine? m).map fun n => n.metadata.displayName⟩) ∧
    (∀ m n, c.nodeForMachine? m = some n →
      n ∈ c.nodes.objects ∧ n.metadata.name = some n.metadata.displayName) ∧
    (∀ i ∈ g.members c, ∀ name, i.nodeName = some name →
      ∃ m ∈ g.machines c, c.instanceOf? m = some i ∧ ∃ n, c.nodeForMachine? m = some n ∧
        n.metadata.name = some name ∧ n.providerId? = some i.id) ∧
    (c.BareNodes → ∀ i ∈ g.members c, ∀ name, i.nodeName = some name →
      ∀ n ∈ c.nodes.objects, n.metadata.name = some name → n.providerId? = some i.id) ∧
    (g.members c).length ≤ (g.machines c).length := by
  have told : ∀ i ∈ g.members c, ∀ name, i.nodeName = some name →
      ∃ m ∈ g.machines c, c.instanceOf? m = some i ∧ ∃ n, c.nodeForMachine? m = some n ∧
        n.metadata.name = some name ∧ n.providerId? = some i.id := by
    intro i hi name named
    obtain ⟨m, hm, made⟩ := List.mem_filterMap.mp hi
    obtain ⟨n, found, own⟩ := Cluster.nodeForMachine?_of_named reached made named
    exact ⟨m, hm, made, n, found, own, Cluster.providerId?_of_instance reached made found⟩
  refine ⟨?_, fun m n => Cluster.named_of_nodeForMachine? reached, told, ?_,
    List.length_filterMap_le _ _⟩
  · rw [members]
    exact congrArg (fun f => (g.machines c).filterMap f) (funext (c.instanceOf?_eq reached))
  · intro bare i hi name named n hn own
    obtain ⟨m, -, -, k, found, also, carried⟩ := told i hi name named
    have hk := (Cluster.named_of_nodeForMachine? reached found).1
    rwa [Cluster.eq_of_node_name reached bare hn hk own also]

end NodeGroup

namespace Lab

/-- The Machine of `fleet` has no provider ID and is counted by that of the Node it refers to. -/
theorem fleet_member_told : directory.cluster.Reached ∧ directory.cluster.BareNodes ∧
    partMachine.providerId? = none ∧
    directory.cluster.nodeForMachine? partMachine = some nodeB ∧
    nodeB ∈ directory.cluster.nodes.objects ∧ nodeB.metadata.name = some "node-b" ∧
    ⟨"id-b", some "node-b"⟩ ∈ fleetGroup.members directory.cluster ∧
    nodeB.providerId? = some "id-b" := by
  obtain ⟨equal, cached, -, one, -⟩ :=
    NodeGroup.members_told_by_nodes fleetGroup directory.cluster reached
  have found : directory.cluster.nodeForMachine? partMachine = some nodeB := rfl
  obtain ⟨there, named⟩ := cached partMachine nodeB found
  have member : ⟨"id-b", some "node-b"⟩ ∈ fleetGroup.members directory.cluster := by
    rw [equal, fleetMachines_eq]
    exact List.mem_cons_self
  exact ⟨reached, bare, rfl, found, there, named, member,
    one bare _ member "node-b" rfl nodeB there named⟩

end Lab
end NodeGroups
