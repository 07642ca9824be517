import NodeGroups.Proofs.Dependence
import NodeGroups.Proofs.Partition
import NodeGroups.Proofs.Scoping

/-!
# What a scope keeps out

Two clusters that agree in a namespace answer alike to a directory that is confined to it,
whatever they hold elsewhere: a listing and a look ask for objects of the namespace only. This
rests on looks that stay in the namespace they are asked for (`Cluster.OwnersStay`); an object
that is in no namespace can be fallen back to from any.
-/
namespace NodeGroups

theorem Keying.of_place {k : Keying} {ns : Option String} {s : String}
    (h : k.place ns = some s) : ns = some s := by
  cases k with
  | folding => exact (filled_eq_some_iff.mp h).1
  | exact => exact h

namespace Cache

variable {α : Type} [Resource α] {c k : Cache α} {s : String}

theorem mem_within_some {a : α} :
    a ∈ c.within (some s) ↔ a ∈ c.objects ∧ (Resource.metadata a).ns = some s := by
  rw [within_some, List.mem_filter, housed, decide_eq_true_iff]

theorem Keyed.get?_cached (h : c.Keyed) {ns : Option String} {name : String} {a : α}
    (found : c.get? ns name = some a) : a ∈ c.objects ∧
      (c.keyOf a = some (c.keying.place ns, name) ∨
        c.keying = .exact ∧ c.keyOf a = some (none, name)) := by
  have cached {key : Option String × String} (under : c.under? key = some a) :
      a ∈ c.objects ∧ c.keyOf a = some key := h.under?_eq_some_iff.mp under
  rw [get?] at found
  cases keying : c.keying with
  | folding =>
    rw [keying] at found
    exact (cached found).imp_right Or.inl
  | exact =>
    rw [keying] at found
    cases first : c.under? (ns, name) with
    | some b =>
      rw [first] at found
      cases found
      exact (cached first).imp_right Or.inl
    | none =>
      rw [first] at found
      exact (cached found).imp_right fun key => Or.inr ⟨rfl, key⟩

/-- Of the objects of a namespace a look finds the one of the name, if it asks there. -/
theorem Keyed.get?_visible (h : c.Keyed) (hs : s ≠ "") {ns : Option String} {name : String}
    {a : α} : (c.get? ns name).filter (housed s) = some a ↔
      ns = some s ∧ a ∈ c.within (some s) ∧ (Resource.metadata a).name = some name := by
  rw [Option.filter_eq_some_iff, housed, decide_eq_true_iff, mem_within_some]
  constructor
  · rintro ⟨found, there⟩
    obtain ⟨cached, key | ⟨-, key⟩⟩ := h.get?_cached found
    · obtain ⟨place, named⟩ := keyOf_eq_some key
      rw [there, Keying.place_some hs] at place
      exact ⟨Keying.of_place place.symm, ⟨cached, there⟩, named⟩
    · obtain ⟨place, -⟩ := keyOf_eq_some key
      rw [there, Keying.place_some hs] at place
      cases place
  · rintro ⟨rfl, ⟨cached, there⟩, named⟩
    obtain ⟨⟨ns, other⟩, key⟩ := Option.ne_none_iff_exists'.mp (h.hasKey a cached)
    obtain ⟨place, again⟩ := keyOf_eq_some key
    cases named.symm.trans again
    rw [there, Keying.place_some hs] at place
    subst place
    have first := h.under?_eq_some_iff.mpr ⟨cached, key⟩
    refine ⟨?_, there⟩
    rw [get?]
    cases c.keying with
    | folding => rwa [Keying.place_some hs]
    | exact =>
      rw [first]
      rfl

/-- Where nothing is fallen back to, a look finds objects of the namespace that it asks in. -/
theorem Keyed.ns_of_get? (h : c.Keyed) (direct : c.Direct) (hs : s ≠ "") {name : String} {a : α}
    (found : c.get? (some s) name = some a) : (Resource.metadata a).ns = some s := by
  obtain ⟨cached, key | ⟨exact, key⟩⟩ := h.get?_cached found
  · obtain ⟨place, -⟩ := keyOf_eq_some key
    rw [Keying.place_some hs] at place
    exact Keying.of_place place
  · rcases direct with folding | namespaced
    · cases exact.symm.trans folding
    · exact absurd ((keyOf_exact exact).mp key).1 (namespaced a cached)

/-- Two caches have the same objects of the namespace. -/
def AgreeIn (s : String) (c k : Cache α) : Prop :=
  (c.within (some s)).Perm (k.within (some s))

theorem AgreeIn.symm (agree : AgreeIn s c k) : AgreeIn s k c := List.Perm.symm agree

theorem AgreeIn.mem_objects_iff (agree : AgreeIn s c k) {a : α}
    (there : (Resource.metadata a).ns = some s) : a ∈ c.objects ↔ a ∈ k.objects := by
  have both := agree.mem_iff (a := a)
  rw [mem_within_some, mem_within_some] at both
  simpa [there] using both

theorem AgreeIn.get?_visible (agree : AgreeIn s c k) (keyed : c.Keyed) (keyedk : k.Keyed)
    (hs : s ≠ "") (ns : Option String) (name : String) :
    (c.get? ns name).filter (housed s) = (k.get? ns name).filter (housed s) := by
  ext a
  rw [keyed.get?_visible hs, keyedk.get?_visible hs, agree.mem_iff]

/-- Caches that agree in a namespace and whose looks do not leave it. -/
structure Comparable (s : String) (c k : Cache α) : Prop where
  filled : s ≠ ""
  keyed : c.Keyed
  keyedk : k.Keyed
  direct : c.Direct
  directk : k.Direct
  agree : AgreeIn s c k

namespace Comparable

variable (h : Comparable s c k)

include h

theorem get? (name : String) : c.get? (some s) name = k.get? (some s) name := by
  have stays {e : Cache α} (keyed : e.Keyed) (direct : e.Direct) :
      (e.get? (some s) name).filter (housed s) = e.get? (some s) name := by
    cases found : e.get? (some s) name with
    | none => rfl
    | some a => simp [Option.filter, housed, keyed.ns_of_get? direct h.filled found]
  rw [← stays h.keyed h.direct, ← stays h.keyedk h.directk,
    h.agree.get?_visible h.keyed h.keyedk h.filled]

/-- What is in the namespace has the same owner in both. -/
theorem owner? {owned : Metadata} (there : owned.ns = some s) :
    NodeGroups.owner? owned c = NodeGroups.owner? owned k := by
  rw [owner?_eq, owner?_eq]
  cases asked : owned.ownerKey? (Resource.kind α) with
  | error e => rfl
  | ok found =>
    cases found with
    | none => rfl
    | some look =>
      have within : look.1.ns = s := Metadata.ns_of_ownerKey? there h.filled asked
      have asks : look.1.ns? = some s := by rw [ObjectKey.ns?, within, if_neg h.filled]
      simp only [Except.map, Option.bind_some, asks, h.get?]

end Comparable

end Cache

namespace Cluster

/-- The same Nodes, and the same objects of the namespace; what else there is is left open. -/
structure AgreeIn (s : String) (c k : Cluster) : Prop where
  nodes : c.nodes = k.nodes
  machines : Cache.AgreeIn s c.machines k.machines
  machineSets : Cache.AgreeIn s c.machineSets k.machineSets
  machineDeployments : Cache.AgreeIn s c.machineDeployments k.machineDeployments

theorem AgreeIn.symm {s : String} {c k : Cluster} (agree : AgreeIn s c k) : AgreeIn s k c :=
  ⟨agree.nodes.symm, agree.machines.symm, agree.machineSets.symm, agree.machineDeployments.symm⟩

/-- Clusters that can be compared in a namespace. -/
structure Comparable (s : String) (c k : Cluster) : Prop where
  filled : s ≠ ""
  reached : c.Reached
  reachedk : k.Reached
  stay : c.OwnersStay
  stayk : k.OwnersStay
  agree : AgreeIn s c k

namespace Comparable

variable {s : String} {c k : Cluster} (h : Comparable s c k)

include h

theorem symm : Comparable s k c :=
  ⟨h.filled, h.reachedk, h.reached, h.stayk, h.stay, h.agree.symm⟩

theorem machineSets : Cache.Comparable s c.machineSets k.machineSets :=
  ⟨h.filled, h.reached.machineSets.keyed, h.reachedk.machineSets.keyed, h.stay.machineSets,
    h.stayk.machineSets, h.agree.machineSets⟩

theorem machineDeployments : Cache.Comparable s c.machineDeployments k.machineDeployments :=
  ⟨h.filled, h.reached.machineDeployments.keyed, h.reachedk.machineDeployments.keyed,
    h.stay.machineDeployments, h.stayk.machineDeployments, h.agree.machineDeployments⟩

theorem rootOf {ms : MachineSet} (there : ms.metadata.ns = some s) :
    c.rootOf ms = k.rootOf ms := by
  have owner : c.machineSetOwner? ms = k.machineSetOwner? ms := h.machineDeployments.owner? there
  rw [Cluster.rootOf, Cluster.rootOf, owner]

theorem held? {id : GroupId} (within : id.ns = s) : c.held? id = k.held? id := by
  rw [Cluster.held?, Cluster.held?, within, h.machineSets.get?, h.machineDeployments.get?]

theorem judged {r : Root} (there : r.metadata.ns = some s) : c.judged r = k.judged r := by
  cases r with
  | machineSet ms => rw [Cluster.judged, Cluster.judged, h.rootOf there]
  | machineDeployment md => rfl

theorem isRoot_iff {r : Root} (there : r.metadata.ns = some s) : c.IsRoot r ↔ k.IsRoot r := by
  cases r with
  | machineSet ms =>
    rw [IsRoot, IsRoot, h.rootOf there, h.agree.machineSets.mem_objects_iff there]
  | machineDeployment md => exact h.agree.machineDeployments.mem_objects_iff there

end Comparable

end Cluster

namespace Directory

section
variable {d : Directory} {s : String} {k : Cluster} (scope : d.settings.ns = some s)
  (h : Cluster.Comparable s d.cluster k)

include scope

theorem inScope_iff_eq {ns : String} : d.settings.inScope ns = true ↔ ns = s := by
  rw [Settings.inScope_iff, scope]
  simp [eq_comm]

include h

end

end Directory

/-! Beside the objects of `lab` there are others that go by their names and uids, with sizes and
owners that no listing without a scope would take. -/
namespace Crowd

def part : MachineSet :=
  { Lab.part with
    metadata := { Lab.part.metadata with
      ns := some "annex"
      ownerReferences := some [Lab.owner "MachineDeployment" "a/b" "u3"] } }

def fleet : MachineDeployment :=
  { Lab.fleet with
    metadata := { Lab.fleet.metadata with
      ns := none
      annotations := some [(minSizeEntry, "few"), (maxSizeEntry, "1")] } }

def partMachine : Machine :=
  { Lab.partMachine with metadata := { Lab.partMachine.metadata with ns := some "annex" } }

def cluster : Cluster where
  nodes := Lab.directory.cluster.nodes
  machines := ⟨.folding, [partMachine, Lab.partMachine, Lab.soloMachine]⟩
  machineSets := ⟨.folding, [part, Lab.part, Lab.solo]⟩
  machineDeployments := ⟨.folding, [fleet, Lab.fleet]⟩

def inLab : Directory := Lab.directory.scopedTo (some "lab")

theorem reached : cluster.Reached :=
  ⟨Lab.reached.nodes, Cache.Keyed.reached (by decide), Cache.Keyed.reached (by decide),
    Cache.Keyed.reached (by decide)⟩

theorem stay : cluster.OwnersStay := ⟨Or.inl rfl, Or.inl rfl⟩

theorem agree : Cluster.AgreeIn "lab" inLab.cluster cluster :=
  ⟨rfl, .of_eq rfl, .of_eq rfl, .of_eq rfl⟩

end Crowd

/-! A set whose owner is in no namespace, cached as a server is followed, and two sets that are
both wrong. -/
namespace Stray

def crew : MachineSet :=
  { Lab.solo with
    metadata := { Lab.solo.metadata with
      name := some "crew"
      ownerReferences := some [Lab.owner "MachineDeployment" "fleet" "u3"] } }

def fleet : MachineDeployment :=
  { Lab.fleet with metadata := { Lab.fleet.metadata with ns := none } }

def alone : Directory where
  cluster := { Cluster.empty .exact with machineSets := ⟨.exact, [crew]⟩ }
  settings := { Settings.default with ns := some "lab" }

def fleetGroup : NodeGroup :=
  ⟨⟨.machineDeployment, "", "fleet"⟩, .machineDeployment fleet, ⟨0, 5⟩⟩

def wrong (name : String) : MachineSet :=
  { Lab.solo with
    metadata := { Lab.solo.metadata with
      name := some name
      annotations := some [(minSizeEntry, "few"), (maxSizeEntry, "3")] } }

end Stray
end NodeGroups
