import NodeGroups.Proofs.Represented

/-!
# After a MachineDeployment is gone

A MachineDeployment that is deleted, or recreated under its name, leaves the MachineSets that it
stood for without an owner: owner references name it by a uid that no cached object has any more.
Each of them becomes a root of its own, and with the recreated object they are its heirs
(`Cluster.Heir`). No other way up is changed, and of the Machines below a root nothing at all is
read from the MachineDeployments, so that no other group looks different.
-/
namespace NodeGroups

namespace Cluster

/-- The cluster once the MachineDeployment was deleted, or the fresh one applied. -/
def handedOver (c : Cluster) (md : MachineDeployment) :
    Option MachineDeployment → Except Error Cluster
  | none => .ok (c.withDeployments
      (c.machineDeployments.delete md.metadata.ns (md.metadata.name.getD "")))
  | some fresh => (c.machineDeployments.apply fresh).map c.withDeployments

/-- The fresh object has the key of the other one, and no owner reference of a cached MachineSet
has its uid. -/
structure Supplants (c : Cluster) (md fresh : MachineDeployment) : Prop where
  ns : fresh.metadata.ns = md.metadata.ns
  name : fresh.metadata.name = md.metadata.name
  unknown : ∀ ms ∈ c.machineSets.objects, ∀ reference ∈ ms.metadata.ownerReferences.getD [],
    fresh.metadata.uid ≠ some reference.uid

/-- What is a root after the MachineDeployment and was none before. -/
def Heir (c : Cluster) (md : MachineDeployment) (fresh : Option MachineDeployment) : Root → Prop
  | .machineSet ms => ms ∈ c.machineSets.objects ∧ c.rootOf ms = .ok (.machineDeployment md)
  | .machineDeployment other => fresh = some other

/-- The second cluster is the first one with the MachineDeployment gone and the fresh one, if there
is one, added. -/
structure Succeeds (c : Cluster) (md : MachineDeployment) (fresh : Option MachineDeployment)
    (e : Cluster) : Prop where
  reached : c.Reached
  placed : c.Placed
  supplants : ∀ other, fresh = some other → c.Supplants md other
  reachede : e.Reached
  placede : e.Placed
  nodes : e.nodes = c.nodes
  machines : e.machines = c.machines
  machineSets : e.machineSets = c.machineSets
  cached : ∀ other, other ∈ e.machineDeployments.objects ↔
    other ∈ c.machineDeployments.objects ∧ other ≠ md ∨ fresh = some other

theorem Supplants.owns_eq_false {c : Cluster} {md fresh : MachineDeployment}
    (h : c.Supplants md fresh) {ms : MachineSet} (hms : ms ∈ c.machineSets.objects) :
    owns fresh ms.metadata = false := by
  rw [Bool.eq_false_iff]
  intro own
  obtain ⟨reference, first, -, -, uid⟩ := owns_iff.mp own
  exact h.unknown ms hms reference (List.mem_of_find?_eq_some first) uid

section
variable {c : Cluster} {md : MachineDeployment} {fresh : Option MachineDeployment}
  (reached : c.Reached) (placed : c.Placed) (hmd : md ∈ c.machineDeployments.objects)
  (supplants : ∀ other, fresh = some other → c.Supplants md other)

include reached placed hmd supplants

theorem succeeds_withDeployments {deployments : Cache MachineDeployment}
    (filled : deployments.Reached) (cached : ∀ other, other ∈ deployments.objects ↔
      other ∈ c.machineDeployments.objects ∧ other ≠ md ∨ fresh = some other) :
    c.Succeeds md fresh (c.withDeployments deployments) := by
  refine ⟨reached, placed, supplants, { reached with machineDeployments := filled }, ?_, rfl, rfl,
    rfl, cached⟩
  refine { placed with machineDeployments := fun other hother => ?_ }
  rcases (cached other).mp hother with ⟨old, -⟩ | new
  · exact placed.machineDeployments other old
  · obtain ⟨ns, name, -⟩ := supplants other new
    have own := placed.machineDeployments md hmd
    exact ⟨ns ▸ own.ns, name ▸ own.name⟩

/-- Both ways of writing leave a cluster that succeeds the first one. -/
theorem exists_succeeds : ∃ e, c.handedOver md fresh = .ok e ∧ c.Succeeds md fresh e := by
  have keyed := reached.machineDeployments.keyed
  cases hfresh : fresh with
  | none =>
    refine ⟨_, rfl, ?_⟩
    rw [← hfresh]
    have gone : (c.machineDeployments.delete md.metadata.ns (md.metadata.name.getD "")).objects =
        c.machineDeployments.objects.filter fun x => x ≠ md := keyed.delete_eq_filter hmd
    refine succeeds_withDeployments reached placed hmd supplants
      (reached.machineDeployments.delete _ _) fun other => ?_
    rw [gone, List.mem_filter, decide_eq_true_iff, hfresh]
    simp
  | some successor =>
    obtain ⟨ns, name, -⟩ := supplants successor hfresh
    have went : c.machineDeployments.apply successor =
        .ok (c.machineDeployments.replaced md successor) :=
      keyed.apply_of_keyOf hmd (Cache.keyOf_of_name ns name)
    refine ⟨c.withDeployments (c.machineDeployments.replaced md successor),
      by rw [handedOver, went]; rfl, ?_⟩
    rw [← hfresh]
    refine succeeds_withDeployments reached placed hmd supplants
      (reached.machineDeployments.apply went) fun other => ?_
    rw [Cache.mem_replaced_iff, hfresh, Option.some.injEq, or_comm, eq_comm]

end

section
variable {c e : Cluster} {md : MachineDeployment} {fresh : Option MachineDeployment}
  (h : c.Succeeds md fresh e) {ms : MachineSet} (hms : ms ∈ c.machineSets.objects)

include h hms

theorem machineSetOwner?_of_succeeds_iff {other : MachineDeployment} :
    e.machineSetOwner? ms = .ok (some other) ↔
      c.machineSetOwner? ms = .ok (some other) ∧ other ≠ md := by
  have kept : ms ∈ e.machineSets.objects := h.machineSets ▸ hms
  rw [machineSetOwner?_eq_some_iff h.reachede h.placede kept,
    machineSetOwner?_eq_some_iff h.reached h.placed hms, h.cached]
  constructor
  · rintro ⟨⟨old, ne⟩ | new, own⟩
    · exact ⟨⟨old, own⟩, ne⟩
    · rw [(h.supplants other new).owns_eq_false hms] at own
      cases own
  · rintro ⟨⟨old, own⟩, ne⟩
    exact ⟨Or.inl ⟨old, ne⟩, own⟩

/-- A MachineSet has the owner that it had, unless that is the MachineDeployment that is gone. -/
theorem machineSetOwner?_of_succeeds : e.machineSetOwner? ms =
    (c.machineSetOwner? ms).map fun found => found.filter fun other => other ≠ md := by
  have asked (k : Cluster) : k.machineSetOwner? ms = _ := owner?_eq ms.metadata k.machineDeployments
  cases read : ms.metadata.ownerKey? (Resource.kind MachineDeployment) with
  | error failed =>
    rw [asked e, asked c, read]
    rfl
  | ok look =>
    -- The reference can be read, so that both clusters answer, and their answers can be compared.
    obtain ⟨old, before⟩ : ∃ old, c.machineSetOwner? ms = .ok old :=
      ⟨_, by rw [asked c, read, Except.map]⟩
    obtain ⟨new, after⟩ : ∃ new, e.machineSetOwner? ms = .ok new :=
      ⟨_, by rw [asked e, read, Except.map]⟩
    rw [before, after, Except.map, Except.ok.injEq]
    refine Option.ext fun other => ?_
    have same : e.machineSetOwner? ms = .ok (some other) ↔
        c.machineSetOwner? ms = .ok (some other) ∧ other ≠ md :=
      machineSetOwner?_of_succeeds_iff h hms
    rw [before, after, Except.ok.injEq, Except.ok.injEq] at same
    rw [same, Option.filter_eq_some_iff, decide_eq_true_iff]

/-- The MachineSets that the MachineDeployment stood for become roots of their own. -/
theorem rootOf_of_succeeds : e.rootOf ms = (c.rootOf ms).map fun root =>
    if root = .machineDeployment md then .machineSet ms else root := by
  rw [rootOf, rootOf, machineSetOwner?_of_succeeds h hms]
  cases c.machineSetOwner? ms with
  | error failed => rfl
  | ok owner =>
    cases owner with
    | none => simp [Except.map]
    | some other => by_cases gone : other = md <;> simp [Except.map, Option.filter, gone]

end

section
variable {c e : Cluster} {md : MachineDeployment} {fresh : Option MachineDeployment}
  (h : c.Succeeds md fresh e)

include h

/-- The roots are the ones before, without the MachineDeployment, and its heirs. -/
theorem isRoot_of_succeeds {r : Root} :
    e.IsRoot r ↔ c.IsRoot r ∧ r ≠ .machineDeployment md ∨ c.Heir md fresh r := by
  cases r with
  | machineDeployment other =>
    rw [IsRoot, IsRoot, Heir, h.cached, ne_eq, ne_eq, Root.machineDeployment.injEq]
  | machineSet ms =>
    rw [IsRoot, IsRoot, Heir, h.machineSets]
    by_cases hms : ms ∈ c.machineSets.objects
    · rw [rootOf_of_succeeds h hms]
      cases c.rootOf ms with
      | error failed => simp [Except.map]
      | ok root => by_cases gone : root = .machineDeployment md <;> simp [Except.map, hms, gone]
    · simp [hms]

end

/-- A fresh object owns no MachineSet, and so no Machine is below it. -/
theorem Supplants.machines_eq_nil {c e : Cluster} {md other : MachineDeployment}
    (h : c.Supplants md other) (sets : e.machineSets = c.machineSets) {g : NodeGroup}
    (root : g.root = .machineDeployment other) : g.machines e = [] := by
  have owned : (e.machineSets.within (some g.id.ns)).filter
      (fun ms => owns other ms.metadata) = [] := by
    refine List.filter_eq_nil_iff.mpr fun ms hms => ?_
    have cached : ms ∈ c.machineSets.objects := sets ▸ (Cache.mem_within_iff.mp hms).1
    simp [h.owns_eq_false cached]
  rw [NodeGroup.machines, NodeGroup.unsortedMachines, root]
  simp only [owned, List.flatMap_nil, List.mergeSort_nil]

/-- What a group shows is read from the caches that are the same. -/
theorem Succeeds.summary_eq {c e : Cluster} {md : MachineDeployment}
    {fresh : Option MachineDeployment} (h : c.Succeeds md fresh e) (g : NodeGroup) :
    g.summary e = g.summary c := by
  refine (NodeGroup.summary_congr h.nodes.symm ?_).symm
  refine NodeGroup.machines_congr rfl ?_ ?_ h.reached.machines.keyed rfl
  · rw [h.machines]
  · rw [h.machineSets]

end Cluster

namespace Directory

/-- Without a scope a listing goes through all roots of the cluster. -/
theorem mem_roots_of_unscoped {d : Directory} (unscoped : d.settings.ns = none) {r : Root} :
    r ∈ d.roots ↔ d.cluster.IsRoot r := by
  rw [mem_roots_iff]
  exact and_iff_left (Settings.covers_of_unscoped unscoped _)

section
variable {d : Directory} {e : Cluster} {md : MachineDeployment}
  {fresh : Option MachineDeployment} (h : d.cluster.Succeeds md fresh e)
  (unscoped : d.settings.ns = none) {gs : List NodeGroup} (went : d.groups = .ok gs)

include h unscoped

theorem mem_roots_of_succeeds {r : Root} : r ∈ (d.reading e).roots ↔
    d.cluster.IsRoot r ∧ r ≠ .machineDeployment md ∨ d.cluster.Heir md fresh r := by
  rw [mem_roots_of_unscoped (d := d.reading e) unscoped]
  exact Cluster.isRoot_of_succeeds h

include went

/-- The listing goes well again if none of the heirs is misconfigured. -/
theorem exists_groups_of_succeeds (clean : ∀ r, d.cluster.Heir md fresh r → ¬ r.Misconfigured) :
    ∃ ks, (d.reading e).groups = .ok ks := by
  obtain ⟨followed, made⟩ := exists_groups_iff.mp ⟨gs, went⟩
  refine exists_groups_iff.mpr ⟨fun ms hms => ?_, fun r hr => ?_⟩
  · have listed : ms ∈ d.scopedSets := by
      rw [scopedSets, ← h.machineSets]
      exact hms
    obtain ⟨root, above⟩ := followed ms listed
    have cached := (Settings.mem_within_scope.mp listed).1
    have after := Cluster.rootOf_of_succeeds h cached
    rw [above] at after
    exact ⟨_, after⟩
  · rcases (mem_roots_of_succeeds h unscoped).mp hr with ⟨old, -⟩ | heir
    · exact made r ((mem_roots_of_unscoped unscoped).mpr old)
    · obtain ⟨id, hid⟩ := id_of_isRoot (d := d.reading e) h.placede (mem_roots_iff.mp hr).1
      cases own : r.group? with
      | ok group => exact ⟨group, rfl⟩
      | error failed => exact absurd (Root.group?_eq_error hid own).1 (clean r heir)

theorem groups_error_of_succeeds_iff : (∃ failed, (d.reading e).groups = .error failed) ↔
    ∃ r, d.cluster.Heir md fresh r ∧ r.Misconfigured := by
  constructor
  · rintro ⟨failed, stopped⟩
    by_contra none
    have clean : ∀ r, d.cluster.Heir md fresh r → ¬ r.Misconfigured := by
      intro r heir wrong
      exact none ⟨r, heir, wrong⟩
    obtain ⟨ks, again⟩ := exists_groups_of_succeeds h unscoped went clean
    cases stopped.symm.trans again
  · rintro ⟨r, heir, wrong⟩
    have hr := (mem_roots_of_succeeds h unscoped).mpr (Or.inr heir)
    obtain ⟨failed, own⟩ := Root.group?_of_misconfigured wrong
    cases again : (d.reading e).groups with
    | error other => exact ⟨other, rfl⟩
    | ok ks =>
      obtain ⟨group, made⟩ := (exists_groups_iff.mp ⟨ks, again⟩).2 r hr
      cases own.symm.trans made

/-- The groups are the ones before, without that of the MachineDeployment, and those of its
heirs. -/
theorem mem_groups_of_succeeds {ks : List NodeGroup} (again : (d.reading e).groups = .ok ks)
    {k : NodeGroup} : k ∈ ks ↔ k ∈ gs ∧ k.root ≠ .machineDeployment md ∨
      d.cluster.Heir md fresh k.root ∧ k.root.Qualifies k.bounds ∧ k.root.id = .ok k.id := by
  rw [mem_groups_iff again, ← and_assoc, ← mem_roots_iff, mem_groups_iff went, ← and_assoc,
    ← mem_roots_iff, mem_roots_of_succeeds h unscoped, mem_roots_of_unscoped unscoped,
    or_and_right, and_right_comm, Root.group?_own_iff]

end

/-- When a MachineDeployment of a listing is deleted, or recreated under another uid, the
MachineSets that it stood for stand for themselves, and all else is as it was. -/
theorem deployment_hands_over (d : Directory) (reached : d.cluster.Reached)
    (placed : d.cluster.Placed) (unscoped : d.settings.ns = none) (gs : List NodeGroup)
    (went : d.groups = .ok gs) (md : MachineDeployment)
    (cached : md ∈ d.cluster.machineDeployments.objects) (fresh : Option MachineDeployment)
    (supplants : ∀ other, fresh = some other → d.cluster.Supplants md other) :
    ∃ e, d.cluster.handedOver md fresh = .ok e ∧
      (∀ ms ∈ d.cluster.machineSets.objects,
        (d.cluster.rootOf ms = .ok (.machineDeployment md) → e.rootOf ms = .ok (.machineSet ms)) ∧
        (d.cluster.rootOf ms ≠ .ok (.machineDeployment md) →
          e.rootOf ms = d.cluster.rootOf ms)) ∧
      ((∃ failed, (d.reading e).groups = .error failed) ↔
        ∃ r, d.cluster.Heir md fresh r ∧ r.Misconfigured) ∧
      ((∀ r, d.cluster.Heir md fresh r → ¬ r.Misconfigured) →
        ∃ ks, (d.reading e).groups = .ok ks ∧ (ks.Pairwise fun a b => a.id.Before b.id) ∧
          ∀ k, k ∈ ks ↔ k ∈ gs ∧ k.root ≠ .machineDeployment md ∨
            d.cluster.Heir md fresh k.root ∧ k.root.Qualifies k.bounds ∧ k.root.id = .ok k.id) ∧
      (∀ k : NodeGroup, ∀ other, fresh = some other → k.root = .machineDeployment other →
        k.machines e = []) ∧
      ∀ k ∈ gs, k.root ≠ .machineDeployment md → k.summary e = k.summary d.cluster := by
  obtain ⟨e, written, h⟩ := Cluster.exists_succeeds reached placed cached supplants
  refine ⟨e, written, fun ms hms => ?_, ?_, fun clean => ?_, ?_, ?_⟩
  · have after := Cluster.rootOf_of_succeeds h hms
    constructor
    · intro above
      rw [after, above]
      simp [Except.map]
    · intro above
      rw [after]
      cases found : d.cluster.rootOf ms with
      | error failed => rfl
      | ok root =>
        have other : root ≠ .machineDeployment md := fun same => above (by rw [found, same])
        simp [Except.map, other]
  · exact groups_error_of_succeeds_iff h unscoped went
  · obtain ⟨ks, again⟩ :=
      exists_groups_of_succeeds h unscoped went clean
    refine ⟨ks, again, groups_ascending h.reachede h.placede.direct.ownersStay again, fun k => ?_⟩
    exact mem_groups_of_succeeds h unscoped went again
  · intro k other new root
    exact (supplants other new).machines_eq_nil h.machineSets root
  · intro k _ _
    exact h.summary_eq k

end Directory

namespace Lab

/-- The small cluster where `part` has sizes that would make a group of it. -/
def grown : Directory :=
  { directory with cluster :=
      { directory.cluster with machineSets := ⟨.folding, [grownPart, solo]⟩ } }

def recreatedFleet : MachineDeployment :=
  { fleet with metadata := { fleet.metadata with uid := some "u9" } }

def grownGroup : NodeGroup := ⟨⟨.machineSet, "lab", "part"⟩, .machineSet grownPart, ⟨1, 9⟩⟩

def recreatedGroup : NodeGroup :=
  ⟨⟨.machineDeployment, "lab", "fleet"⟩, .machineDeployment recreatedFleet, ⟨0, 5⟩⟩

theorem grown_reached : grown.cluster.Reached :=
  { reached with machineSets := Cache.Keyed.reached (by decide) }

theorem grown_placed : grown.cluster.Placed := { placed with machineSets := by decide }

theorem grown_groups_eq : grown.groups = .ok [soloGroup, fleetGroup] := by
  have candidates : grown.candidates = .ok [.machineSet solo, .machineDeployment fleet] := rfl
  have found : each Root.group? [.machineSet solo, .machineDeployment fleet] =
      .ok [some soloGroup, some fleetGroup] := rfl
  exact Directory.groups_of_ascending candidates found (by decide)

theorem recreatedFleet_supplants : grown.cluster.Supplants fleet recreatedFleet :=
  ⟨rfl, rfl, by decide⟩

/-- What `fleet` leaves behind when it is recreated. -/
theorem grown_heir {r : Root} (heir : grown.cluster.Heir fleet (some recreatedFleet) r) :
    r = .machineSet grownPart ∨ r = .machineDeployment recreatedFleet := by
  cases r with
  | machineDeployment other =>
    cases heir
    exact Or.inr rfl
  | machineSet ms =>
    obtain ⟨hms, above⟩ := heir
    have alone : grown.cluster.rootOf solo = .ok (.machineSet solo) := rfl
    rcases List.mem_cons.mp hms with rfl | hms
    · exact Or.inl rfl
    · cases List.mem_singleton.mp hms
      cases alone.symm.trans above

theorem grown_heir_sound (r : Root) (heir : grown.cluster.Heir fleet (some recreatedFleet) r) :
    ¬ r.Misconfigured := by
  intro wrong
  obtain ⟨failed, own⟩ := Root.group?_of_misconfigured wrong
  rcases grown_heir heir with rfl | rfl
  · have made : (Root.machineSet grownPart).group? = .ok (some grownGroup) := rfl
    cases own.symm.trans made
  · have made : (Root.machineDeployment recreatedFleet).group? = .ok (some recreatedGroup) := rfl
    cases own.symm.trans made

theorem part_misconfigured : (Root.machineSet part).Misconfigured := by
  have hid : (Root.machineSet part).id = .ok ⟨.machineSet, "lab", "part"⟩ := rfl
  have nothing : (Root.machineSet part).group?.toOption = none := rfl
  cases own : (Root.machineSet part).group? with
  | error failed => exact (Root.group?_eq_error hid own).1
  | ok group =>
    rw [own] at nothing
    cases nothing

/-- When `fleet` is recreated, `part` becomes a group beside the new one, which has no Machines;
and when it is deleted where `part` has sizes that are none, the listing fails. -/
theorem fleet_hands_over : grown.cluster.Reached ∧ grown.cluster.Placed ∧
    grown.settings.ns = none ∧ grown.groups = .ok [soloGroup, fleetGroup] ∧
    fleet ∈ grown.cluster.machineDeployments.objects ∧
    grown.cluster.Supplants fleet recreatedFleet ∧
    (∃ e ks, grown.cluster.handedOver fleet (some recreatedFleet) = .ok e ∧
      e.rootOf grownPart = .ok (.machineSet grownPart) ∧ (grown.reading e).groups = .ok ks ∧
      grownGroup ∈ ks ∧ soloGroup ∈ ks ∧ recreatedGroup ∈ ks ∧ fleetGroup ∉ ks ∧
      recreatedGroup.machines e = [] ∧
      soloGroup.summary e = soloGroup.summary grown.cluster) ∧
    ∃ e failed, directory.cluster.handedOver fleet none = .ok e ∧
      (directory.reading e).groups = .error failed := by
  have hfleet : fleet ∈ grown.cluster.machineDeployments.objects := by decide
  have supplants : ∀ other, some recreatedFleet = some other →
      grown.cluster.Supplants fleet other := by
    intro other same
    cases same
    exact recreatedFleet_supplants
  obtain ⟨e, written, roots, -, listing, empty, kept⟩ :=
    Directory.deployment_hands_over grown grown_reached grown_placed rfl _ grown_groups_eq fleet
      hfleet (some recreatedFleet) supplants
  obtain ⟨ks, again, -, members⟩ := listing grown_heir_sound
  have heirs : grownGroup ∈ ks ∧ recreatedGroup ∈ ks := by
    refine ⟨(members _).mpr (Or.inr ⟨⟨by decide, rfl⟩, ?_⟩), (members _).mpr (Or.inr ⟨rfl, ?_⟩)⟩
    · exact Root.group?_own_iff.mp rfl
    · exact Root.group?_own_iff.mp rfl
  have solos : soloGroup ∈ ks := (members _).mpr (Or.inl ⟨by decide, by decide⟩)
  have gone : fleetGroup ∉ ks := by
    intro listed
    rcases (members _).mp listed with ⟨-, other⟩ | ⟨heir, -⟩
    · exact other rfl
    · exact absurd (grown_heir heir) (by decide)
  obtain ⟨k, deleted, -, failing, -⟩ :=
    Directory.deployment_hands_over directory reached placed rfl _ groups_eq fleet (by decide) none
      (by simp)
  obtain ⟨failed, stopped⟩ :=
    failing.mpr ⟨.machineSet part, ⟨by decide, rfl⟩, part_misconfigured⟩
  exact ⟨grown_reached, grown_placed, rfl, grown_groups_eq, hfleet, recreatedFleet_supplants,
    ⟨e, ks, written, (roots grownPart (by decide)).1 rfl, again, heirs.1, solos, heirs.2, gone,
      empty _ _ rfl rfl, kept _ (by decide) (by decide)⟩,
    k, failed, deleted, stopped⟩

end Lab
end NodeGroups
