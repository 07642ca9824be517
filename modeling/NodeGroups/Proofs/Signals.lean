import NodeGroups.Proofs.Lookup
import NodeGroups.Proofs.Matching

/-!
# Which signal decides

A Machine that carries the provider ID of a Node is the Node's, whatever an annotation says. Only
where no cached Machine carries it, an annotation decides, and it is followed as it stands: the
Machine that it names may have another provider ID, or none. It is the annotation of the first
Node with the ID, and so the Node's own unless there is a second Node with its ID.
-/
namespace NodeGroups

namespace Cluster

/-- No other cached Node has the provider ID of this one. -/
def Lone (c : Cluster) (n : Node) : Prop :=
  ∀ other ∈ c.nodes.objects, ∀ id,
    n.providerId? = some id → other.providerId? = some id → other = n

/-- No cached Machine carries the ID, and the annotation of the first Node that has it names this
one. -/
structure LedTo (c : Cluster) (id : String) (m : Machine) : Prop where
  unclaimed : ∀ k ∈ c.machines.objects, k.providerId? ≠ some id
  named : ∃ n key, c.nodeByProviderId? id = some n ∧ n.PointsAt key ∧ c.machineByKey? key = some m

section
variable {c : Cluster} {n : Node}

theorem carrier?_eq_none_iff :
    c.carrier? n = none ↔ ∀ m ∈ c.machines.objects, ¬ n.SharesId m := by
  constructor
  · intro h m hm shared
    obtain ⟨id, own, carried⟩ := shared
    rw [carrier?, own, Option.bind_some, Cache.within_none, List.find?_eq_none] at h
    exact h m hm (decide_eq_true carried)
  · intro h
    cases carried : c.carrier? n with
    | none => rfl
    | some m =>
      obtain ⟨hm, shared⟩ := carrier?_eq_some carried
      exact absurd shared (h m hm)

/-- A cached Node has a guide, if only itself. -/
theorem exists_guide (hn : n ∈ c.nodes.objects) : ∃ k ∈ c.nodes.objects, c.guide? n = some k := by
  rw [guide?]
  cases own : n.providerId? with
  | none => exact ⟨n, hn, rfl⟩
  | some id =>
    have there : ((c.nodes.within none).find? fun k => k.providerId? = some id).isSome := by
      rw [Cache.within_none]
      exact List.find?_isSome.mpr ⟨n, hn, decide_eq_true own⟩
    obtain ⟨k, found⟩ := Option.isSome_iff_exists.mp there
    have first : c.nodeByProviderId? id = some k := by
      rw [nodeByProviderId?, if_neg (filled_eq_some_iff.mp own).2, found]
    exact ⟨k, (nodeByProviderId?_eq_some first).1, first⟩

theorem eq_of_guide (lone : c.Lone n) {k : Node} (h : c.guide? n = some k) : k = n := by
  rcases guide?_eq_some h with same | ⟨hk, id, own, also⟩
  · exact same
  · exact lone k hk id own also

end

/-- The walk from a cached Node: to a Machine with its provider ID, else by the annotation of the
first Node with the ID, which is its own if no other Node has the ID. -/
theorem walk_by_first_annotation (c : Cluster) (reached : c.Reached) (memory : c.InMemory)
    (n : Node) (hn : n ∈ c.nodes.objects) :
    ((∃ k ∈ c.machines.objects, n.SharesId k) →
      ∃ m ∈ c.machines.objects, n.SharesId m ∧ c.machineForNode? n = .ok (some m)) ∧
    ((∀ k ∈ c.machines.objects, ¬ n.SharesId k) →
      ∃ k ∈ c.nodes.objects, c.guide? n = some k ∧ c.Resolves k (c.machineForNode? n) ∧
        (c.Lone n → k = n)) := by
  constructor
  · rintro ⟨k, hk, shared⟩
    cases carried : c.carrier? n with
    | none => exact absurd shared (carrier?_eq_none_iff.mp carried k hk)
    | some m =>
      obtain ⟨hm, own⟩ := carrier?_eq_some carried
      refine ⟨m, hm, own, ?_⟩
      rw [machineForNode?_eq, carried]
      rfl
  · intro free
    obtain ⟨k, hk, first⟩ := exists_guide hn
    have walked : c.machineForNode? n = c.annotatedMachine? k := by
      rw [machineForNode?_eq, carrier?_eq_none_iff.mpr free, first]
      rfl
    refine ⟨k, hk, first, ?_, fun lone => eq_of_guide lone first⟩
    rw [walked]
    exact annotatedMachine?_resolves reached.machines.keyed memory.machines k

end Cluster

namespace Lab

/-- In the small cluster every Node is led by its own signals. -/
theorem nodes_lead_themselves : directory.cluster.Reached ∧ directory.cluster.InMemory ∧
    (nodeA ∈ directory.cluster.nodes.objects ∧ nodeA.SharesId soloMachine ∧
      ∃ m ∈ directory.cluster.machines.objects, nodeA.SharesId m ∧
        directory.cluster.machineForNode? nodeA = .ok (some m)) ∧
    nodeB ∈ directory.cluster.nodes.objects ∧
      (∀ k ∈ directory.cluster.machines.objects, ¬ nodeB.SharesId k) ∧
      directory.cluster.Resolves nodeB (directory.cluster.machineForNode? nodeB) := by
  have hA : nodeA ∈ directory.cluster.nodes.objects := by decide
  have hB : nodeB ∈ directory.cluster.nodes.objects := by decide
  have shared : nodeA.SharesId soloMachine := ⟨"id-a", rfl, rfl⟩
  have free : ∀ k ∈ directory.cluster.machines.objects, ¬ nodeB.SharesId k :=
    Cluster.carrier?_eq_none_iff.mp rfl
  have lone : directory.cluster.Lone nodeB := by
    intro other hother id own also
    exact distinct.nodes other hother nodeB hB id also own
  have first := (Cluster.walk_by_first_annotation directory.cluster reached inMemory nodeA hA).1
  have second := (Cluster.walk_by_first_annotation directory.cluster reached inMemory nodeB hB).2
  obtain ⟨k, -, -, resolved, own⟩ := second free
  rw [own lone] at resolved
  exact ⟨reached, inMemory, ⟨hA, shared, first ⟨soloMachine, by decide, shared⟩⟩, hB, free,
    resolved⟩

end Lab

/-! The instance of `node-b` has registered anew: the Node it had before is still cached and has
its provider ID, and no Machine has one yet. -/
namespace Reregistered

def leftover : Node where
  metadata := { Metadata.empty with
    name := some "node-0"
    annotations := some [(machineEntry, "lab/solo-a")] }
  declaredProviderId := some "id-b"

def freshMachine : Machine := { Lab.soloMachine with declaredProviderId := none }

def directory : Directory where
  cluster := { Lab.directory.cluster with
    nodes := ⟨.folding, [leftover, Lab.nodeB]⟩
    machines := ⟨.folding, [Lab.partMachine, freshMachine]⟩ }
  settings := Settings.default

theorem reached : directory.cluster.Reached :=
  ⟨Cache.Keyed.reached (by decide), Cache.Keyed.reached (by decide),
    Lab.reached.machineSets, Lab.reached.machineDeployments⟩

theorem inMemory : directory.cluster.InMemory := ⟨rfl, rfl, rfl, rfl⟩

/-- The annotation of `node-b` names `part-a`, and `solo-a` is what that of the other Node
names. -/
theorem leftover_decides : directory.cluster.Reached ∧ directory.cluster.InMemory ∧
    Lab.nodeB ∈ directory.cluster.nodes.objects ∧
    (∀ k ∈ directory.cluster.machines.objects, ¬ Lab.nodeB.SharesId k) ∧
    Lab.nodeB.PointsAt ⟨"lab", "part-a"⟩ ∧
    Lab.partMachine ∈ directory.cluster.machines.objects ∧
    Lab.partMachine.metadata.key = .ok ⟨"lab", "part-a"⟩ ∧
    directory.cluster.machineForNode? Lab.nodeB = .ok (some freshMachine) ∧
    freshMachine ≠ Lab.partMachine ∧
    ¬ directory.cluster.Resolves Lab.nodeB (directory.cluster.machineForNode? Lab.nodeB) ∧
    directory.groupForNode Lab.nodeB = .ok (some Lab.soloGroup) := by
  have walked : directory.cluster.machineForNode? Lab.nodeB = .ok (some freshMachine) := rfl
  have pointed : Lab.nodeB.PointsAt ⟨"lab", "part-a"⟩ := Node.machineKey?_eq_some_iff.mp rfl
  have other : freshMachine ≠ Lab.partMachine := by decide
  refine ⟨reached, inMemory, by decide, Cluster.carrier?_eq_none_iff.mp rfl, pointed, by decide,
    rfl, walked, other, fun resolved => ?_, rfl⟩
  have own := (resolved.found Lab.partMachine).mpr ⟨_, pointed, by decide, rfl⟩
  exact other (Option.some.inj (Except.ok.inj (walked.symm.trans own)))

end Reregistered

namespace Cluster

variable {c : Cluster}

theorem machineByProviderId?_eq_some_iff {id : String} {m : Machine} :
    c.machineByProviderId? id = .ok (some m) ↔
      (c.machines.objects.find? fun k => k.providerId? = some id) = some m ∨ c.LedTo id m := by
  rw [machineByProviderId?, Cache.within_none]
  by_cases empty : id = ""
  · have unborn : ∀ o : Option String, filled o ≠ some id := by
      intro o own
      exact (filled_eq_some_iff.mp own).2 empty
    have nobody : c.nodeByProviderId? id = none := if_pos empty
    simp only [if_pos empty, Except.ok.injEq, reduceCtorEq, false_iff, not_or]
    constructor
    · intro found
      exact unborn _ (mem_of_find?_ident found).2
    · rintro ⟨-, n, key, first, -⟩
      cases nobody.symm.trans first
  · rw [if_neg empty]
    cases found : c.machines.objects.find? fun k => k.providerId? = some id with
    | some k =>
      have claimed : ¬ c.LedTo id m := by
        intro led
        obtain ⟨hk, own⟩ := mem_of_find?_ident found
        exact led.unclaimed k hk own
      simp [claimed]
    | none =>
      have free : ∀ k ∈ c.machines.objects, k.providerId? ≠ some id := by
        intro k hk own
        exact List.find?_eq_none.mp found k hk (decide_eq_true own)
      simp only [reduceCtorEq, false_or]
      cases first : c.nodeByProviderId? id with
      | none =>
        simp only [Except.ok.injEq, reduceCtorEq, false_iff]
        rintro ⟨-, n, key, also, -⟩
        cases first.symm.trans also
      | some n =>
        rw [annotatedMachine?_leads_iff]
        constructor
        · rintro ⟨key, pointed, held⟩
          exact ⟨free, n, key, first, pointed, held⟩
        · rintro ⟨-, other, key, also, pointed, held⟩
          cases first.symm.trans also
          exact ⟨key, pointed, held⟩

/-- The way from a Node that has a provider ID. -/
theorem carries_or_ledTo {n : Node} {id : String} (own : n.providerId? = some id) {m : Machine}
    (h : c.machineForNode? n = .ok (some m)) : m.providerId? = some id ∨ c.LedTo id m := by
  rw [machineForNode?, own] at h
  rcases machineByProviderId?_eq_some_iff.mp h with found | led
  · exact Or.inl (mem_of_find?_ident found).2
  · exact Or.inr led

end Cluster

/-- The Machine that a provider ID leads to, or a Node with one, carries the ID, or no cached
Machine does and the annotation of the first Node with the ID names it. -/
theorem Directory.foreign_machine_named (d : Directory) :
    (∀ id m, d.cluster.machineByProviderId? id = .ok (some m) ↔
      (d.cluster.machines.objects.find? fun k => k.providerId? = some id) = some m ∨
        d.cluster.LedTo id m) ∧
    (∀ n id m, n.providerId? = some id → d.cluster.machineForNode? n = .ok (some m) →
      m.providerId? = some id ∨ d.cluster.LedTo id m) ∧
    ∀ n id g, n.providerId? = some id → d.groupForNode n = .ok (some g) →
      ∃ m, d.cluster.LeadsTo m g.root ∧ (m.providerId? = some id ∨ d.cluster.LedTo id m) := by
  refine ⟨fun id m => Cluster.machineByProviderId?_eq_some_iff, ?_, ?_⟩
  · intro n id m own walked
    exact Cluster.carries_or_ledTo own walked
  · intro n id g own grouped
    obtain ⟨m, walked, -, above, -⟩ := groupForNode_eq_some_iff.mp grouped
    exact ⟨m, above, Cluster.carries_or_ledTo own walked⟩

namespace Lab

/-- No Machine of the small cluster has the ID of `node-b`, and the Node's annotation leads to one
that has none. -/
theorem nodeB_led : nodeB.providerId? = some "id-b" ∧
    directory.cluster.machineForNode? nodeB = .ok (some partMachine) ∧
    directory.cluster.LedTo "id-b" partMachine := by
  have own : nodeB.providerId? = some "id-b" := rfl
  have walked : directory.cluster.machineForNode? nodeB = .ok (some partMachine) := rfl
  obtain ⟨-, fromNode, -⟩ := Directory.foreign_machine_named directory
  rcases fromNode nodeB "id-b" partMachine own walked with carried | led
  · cases carried
  · exact ⟨own, walked, led⟩

def copiedNode : Node :=
  { nodeB with metadata := { nodeB.metadata with
      annotations := some [(machineEntry, "lab/solo-a")] } }

/-- The small cluster where `node-b` has the annotation of another Node. -/
def copied : Directory :=
  { directory with cluster :=
      { directory.cluster with nodes := ⟨.folding, [nodeA, copiedNode]⟩ } }

/-- An annotation that was copied leads from `node-b` to the Machine of `node-a`, which is recorded
with its ID. -/
theorem copied_annotation_crosses : copied.cluster.Reached ∧ copied.cluster.InMemory ∧
    copiedNode ∈ copied.cluster.nodes.objects ∧ copiedNode.providerId? = some "id-b" ∧
    soloMachine.providerId? = some "id-a" ∧ nodeA.SharesId soloMachine ∧
    copied.cluster.machineByProviderId? "id-b" = .ok (some soloMachine) ∧
    copied.cluster.machineForNode? copiedNode = .ok (some soloMachine) ∧
    copied.groupForNode copiedNode = .ok (some soloGroup) := by
  have filled : copied.cluster.nodes.Reached := Cache.Keyed.reached (by decide)
  exact ⟨{ reached with nodes := filled }, ⟨rfl, rfl, rfl, rfl⟩, by decide, rfl, rfl,
    ⟨"id-a", rfl, rfl⟩, rfl, rfl, rfl⟩

end Lab
end NodeGroups
