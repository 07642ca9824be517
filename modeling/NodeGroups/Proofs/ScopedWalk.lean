import NodeGroups.Proofs.Correlation
import NodeGroups.Proofs.Isolation

/-!
# The walk from a Node in a scope

The Machine that carries a Node's provider ID is searched among all Machines, whatever their
namespace (`Cluster.carrier?`). Where the first one is out of the scope the Node has no group
in it. Where there is none, or it is in the scope, the rest of the walk stays in the namespace:
a Machine elsewhere that the annotation leads to is seen as little as one that is not there.
-/
namespace NodeGroups

/-- What a search finds is found as well among a part of the list that has it. -/
theorem find?_filter_of_find? {α : Type} {p q : α → Bool} {l : List α} {a : α}
    (found : l.find? p = some a) (kept : q a = true) : (l.filter q).find? p = some a := by
  obtain ⟨hp, before, after, rfl, skipped⟩ := List.find?_eq_some_iff_append.mp found
  rw [List.find?_filter]
  refine List.find?_eq_some_iff_append.mpr ⟨by simp [hp, kept], before, after, rfl, ?_⟩
  exact fun b hb => by simp [skipped b hb]

/-- A search that ends in the namespace comes to the same as one that never leaves it. -/
theorem Cache.find?_within {α : Type} [Resource α] {c : Cache α} {s : String} {p : α → Bool}
    (there : ∀ a, (c.within none).find? p = some a → (Resource.metadata a).ns = some s) :
    (c.within none).find? p = (c.within (some s)).find? p := by
  rw [within_none] at *
  rw [within_some]
  cases found : c.objects.find? p with
  | none =>
    refine (List.find?_eq_none.mpr fun a ha => ?_).symm
    exact List.find?_eq_none.mp found a (List.mem_of_mem_filter ha)
  | some a => exact (find?_filter_of_find? found (decide_eq_true (there a found))).symm

namespace Cluster

/-- Clusters with the same Machines of a namespace find the same one, if none finds another. -/
theorem carrier?_congr {c k : Cluster} {s : String} {n : Node}
    (listed : c.machines.within (some s) = k.machines.within (some s))
    (visible : ∀ m, c.carrier? n = some m → m.metadata.ns = some s)
    (visiblek : ∀ m, k.carrier? n = some m → m.metadata.ns = some s) :
    c.carrier? n = k.carrier? n := by
  cases own : n.providerId? with
  | none =>
    rw [carrier?, carrier?, own]
    rfl
  | some id =>
    have search (e : Cluster) : e.carrier? n =
        (e.machines.within none).find? fun m => m.providerId? = some id := by
      rw [carrier?, own]
      rfl
    rw [search c] at visible ⊢
    rw [search k] at visiblek ⊢
    rw [Cache.find?_within visible, Cache.find?_within visiblek, listed]

namespace Comparable

variable {s : String} {c k : Cluster} (h : Comparable s c k)

include h

theorem above {m : Machine} (there : m.metadata.ns = some s) : c.above m = k.above m := by
  have owner : c.machineOwner? m = k.machineOwner? m := h.machineSets.owner? there
  rw [Cluster.above, Cluster.above, owner]
  cases found : k.machineOwner? m with
  | error e => rfl
  | ok owned =>
    cases owned with
    | none => rfl
    | some ms =>
      have between : ms.metadata.ns = some s :=
        ns_of_owner? h.reachedk.machineSets.keyed h.stayk.machineSets there h.filled found
      simp only [Except.bind, Option.elim, h.rootOf between]

section
variable {n : Node} (listed : c.machines.within (some s) = k.machines.within (some s))
  (visible : ∀ m, c.carrier? n = some m → m.metadata.ns = some s)
  (visiblek : ∀ m, k.carrier? n = some m → m.metadata.ns = some s)

include listed visible visiblek

/-- Of the Machine that a Node leads to, both clusters let the same be seen. -/
theorem walk : (c.machineForNode? n).map (fun found => found.filter (Cache.housed s)) =
    (k.machineForNode? n).map fun found => found.filter (Cache.housed s) := by
  have guide : c.guide? n = k.guide? n := by
    have search : c.nodeByProviderId? = k.nodeByProviderId? := by
      funext id
      rw [nodeByProviderId?, nodeByProviderId?, h.agree.nodes]
    rw [guide?, guide?, search]
  rw [machineForNode?_eq, machineForNode?_eq, carrier?_congr listed visible visiblek, guide]
  cases k.carrier? n with
  | some m => rfl
  | none =>
    cases k.guide? n with
    | none => rfl
    | some leader =>
      simp only [Option.elim, annotatedMachine?_eq]
      cases leader.machineKey? with
      | error e => rfl
      | ok named =>
        cases named with
        | none => rfl
        | some key =>
          have look := h.agree.machines.get?_visible h.reached.machines.keyed
            h.reachedk.machines.keyed h.filled key.ns? key.name
          simp only [Except.map, Option.bind_some, machineByKey?, look]

end

end Comparable

end Cluster

namespace Directory

section
variable {d : Directory} {s : String} {k : Cluster} (scope : d.settings.ns = some s)

include scope

/-- In a scope the walk goes on from a Machine of its namespace. -/
theorem groupForNode_of_scope (filled : s ≠ "") (n : Node) : d.groupForNode n =
    ((d.cluster.machineForNode? n).map fun found => found.filter (Cache.housed s)).bind
      fun found => found.elim (.ok none) fun m =>
        (d.cluster.above m).bind fun root => root.elim (.ok none) groupAt := by
  have seen : (fun m : Machine => d.settings.inScope (m.metadata.ns.getD "")) =
      Cache.housed s := by
    funext m
    rw [Bool.eq_iff_iff, inScope_iff_eq scope, Cache.housed, decide_eq_true_iff]
    exact ⟨fun same => eq_some_of_getD same filled, fun there => congrArg (·.getD "") there⟩
  rw [groupForNode_eq, seen]
  cases d.cluster.machineForNode? n <;> rfl

/-- From a Machine of another namespace that carries the Node's ID it goes nowhere. -/
theorem groupForNode_of_foreign (filled : s ≠ "") {n : Node} {m : Machine}
    (carried : d.cluster.carrier? n = some m) (foreign : m.metadata.ns ≠ some s) :
    d.groupForNode n = .ok none := by
  have unseen : Cache.housed s m = false := decide_eq_false foreign
  rw [groupForNode_of_scope scope filled, Cluster.machineForNode?_eq, carried]
  simp [Except.map, Except.bind, Option.filter, unseen]

theorem groupForNode_of_comparable (h : Cluster.Comparable s d.cluster k) {n : Node}
    (listed : d.cluster.machines.within (some s) = k.machines.within (some s))
    (visible : ∀ m, d.cluster.carrier? n = some m → m.metadata.ns = some s)
    (visiblek : ∀ m, k.carrier? n = some m → m.metadata.ns = some s) :
    d.groupForNode n = (d.reading k).groupForNode n := by
  rw [groupForNode_of_scope scope h.filled, groupForNode_of_scope (d := d.reading k) scope h.filled,
    reading, h.walk listed visible visiblek]
  cases walked : (k.machineForNode? n).map fun found => found.filter (Cache.housed s) with
  | error e => rfl
  | ok found =>
    cases found with
    | none => rfl
    | some m =>
      have there : m.metadata.ns = some s := by
        cases reachedm : k.machineForNode? n with
        | error e => simp [reachedm, Except.map] at walked
        | ok all =>
          simp only [reachedm, Except.map, Except.ok.injEq] at walked
          exact of_decide_eq_true (Option.filter_eq_some_iff.mp walked).2
      simp only [Except.bind, Option.elim, h.above there]

end

/-- The walk from a Node has the same outcome in both clusters, unless in one of them the first
Machine with the Node's provider ID is out of the scope. Then the Node has no group there. -/
theorem scoped_walk_local (d : Directory) (s : String) (scope : d.settings.ns = some s)
    (valid : d.settings.validate = .ok ()) (k : Cluster) (reached : d.cluster.Reached)
    (reachedk : k.Reached) (stay : d.cluster.OwnersStay) (stayk : k.OwnersStay)
    (agree : Cluster.AgreeIn s d.cluster k)
    (listed : d.cluster.machines.within (some s) = k.machines.within (some s)) (n : Node) :
    (∀ m, d.cluster.carrier? n = some m → m.metadata.ns ≠ some s →
      d.groupForNode n = .ok none) ∧
    (∀ m, k.carrier? n = some m → m.metadata.ns ≠ some s →
      (d.reading k).groupForNode n = .ok none) ∧
    ((∀ m, d.cluster.carrier? n = some m → m.metadata.ns = some s) →
      (∀ m, k.carrier? n = some m → m.metadata.ns = some s) →
      d.groupForNode n = (d.reading k).groupForNode n) := by
  have filled := (Settings.scope_isSegment valid scope).1
  have h : Cluster.Comparable s d.cluster k := ⟨filled, reached, reachedk, stay, stayk, agree⟩
  refine ⟨?_, ?_, groupForNode_of_comparable scope h listed⟩
  · exact fun m carried foreign => groupForNode_of_foreign scope filled carried foreign
  · exact fun m carried foreign =>
      groupForNode_of_foreign (d := d.reading k) scope filled carried foreign

end Directory

namespace Crowd

/-- Nor does the walk from a Node see a Machine of the same name elsewhere. -/
theorem nodeB_walk_kept : inLab.settings.ns = some "lab" ∧
    inLab.settings.validate = .ok () ∧ inLab.cluster.Reached ∧ cluster.Reached ∧
    inLab.cluster.OwnersStay ∧ cluster.OwnersStay ∧
    Cluster.AgreeIn "lab" inLab.cluster cluster ∧
    inLab.cluster.machines.within (some "lab") = cluster.machines.within (some "lab") ∧
    inLab.cluster.carrier? Lab.nodeB = none ∧ cluster.carrier? Lab.nodeB = none ∧
    (inLab.reading cluster).groupForNode Lab.nodeB = .ok (some Lab.fleetGroup) := by
  have stayd : inLab.cluster.OwnersStay := ⟨Or.inl rfl, Or.inl rfl⟩
  have free : inLab.cluster.carrier? Lab.nodeB = none := rfl
  have freek : cluster.carrier? Lab.nodeB = none := rfl
  obtain ⟨-, -, same⟩ := Directory.scoped_walk_local inLab "lab" rfl rfl cluster Lab.reached
    reached stayd stay agree rfl Lab.nodeB
  have kept := same (by simp [free]) (by simp [freek])
  exact ⟨rfl, rfl, Lab.reached, reached, stayd, stay, agree, rfl, free, freek,
    kept.symm.trans rfl⟩

def spare : Machine :=
  { Lab.soloMachine with
    metadata := { Lab.soloMachine.metadata with name := some "spare", ns := some "annex" }
    declaredProviderId := some "id-b" }

def twin : Machine := { Lab.partMachine with declaredProviderId := some "id-a" }

/-- The objects of `lab`, with other Machines. -/
def withMachines (machines : List Machine) : Cluster :=
  { Lab.directory.cluster with machines := ⟨.folding, machines⟩ }

/-- A Machine of another namespace that has a Node's provider ID leaves the Node without the
group that its annotation leads to; and of two Machines with the ID the first one counts. -/
theorem first_carrier_decides : inLab.settings.ns = some "lab" ∧
    inLab.settings.validate = .ok () ∧
    (inLab.cluster.Reached ∧ (withMachines [spare, Lab.partMachine, Lab.soloMachine]).Reached ∧
      Cluster.AgreeIn "lab" inLab.cluster
        (withMachines [spare, Lab.partMachine, Lab.soloMachine]) ∧
      Lab.nodeB ∈ inLab.cluster.nodes.objects ∧
      inLab.groupForNode Lab.nodeB = .ok (some Lab.fleetGroup) ∧
      (inLab.reading (withMachines [spare, Lab.partMachine, Lab.soloMachine])).groupForNode
        Lab.nodeB = .ok none) ∧
    (withMachines [twin, Lab.soloMachine]).Reached ∧
      (withMachines [Lab.soloMachine, twin]).Reached ∧
      Cluster.AgreeIn "lab" (withMachines [twin, Lab.soloMachine])
        (withMachines [Lab.soloMachine, twin]) ∧
      (inLab.reading (withMachines [twin, Lab.soloMachine])).groupForNode Lab.nodeA =
        .ok (some Lab.fleetGroup) ∧
      (inLab.reading (withMachines [Lab.soloMachine, twin])).groupForNode Lab.nodeA =
        .ok (some Lab.soloGroup) := by
  have filled {machines : List Machine}
      (keyed : (Cache.mk Keying.folding machines).Keyed) : (withMachines machines).Reached :=
    ⟨Lab.reached.nodes, keyed.reached, Lab.reached.machineSets, Lab.reached.machineDeployments⟩
  refine ⟨rfl, rfl, ⟨Lab.reached, filled (by decide), ?_, by decide, rfl, rfl⟩,
    filled (by decide), filled (by decide), ?_, rfl, rfl⟩
  · exact ⟨rfl, .of_eq rfl, .of_eq rfl, .of_eq rfl⟩
  · exact ⟨rfl, .swap _ _ _, .of_eq rfl, .of_eq rfl⟩

end Crowd
end NodeGroups
