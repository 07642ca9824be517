import NodeGroups.Proofs.Revision

/-!
# MachineSets that are represented

A MachineSet that a MachineDeployment stands for is on the way from its Machines to that
deployment and nothing else: its own sizes, whatever they are, are read by none of the three
questions. A listing passes over it, a look at it finds no group whether or not its sizes make
one, and a walk goes on to the deployment.
-/
namespace NodeGroups

/-- Elements whose results are sorted out anyway can be left out before. -/
theorem each_filter {ε α β : Type} {f : α → Except ε β} {p : α → Bool} {q : β → Bool}
    {l : List α} (dropped : ∀ a ∈ l, p a = false → ∃ b, f a = .ok b ∧ q b = false) :
    (each f l).map (List.filter q) = (each f (l.filter p)).map (List.filter q) := by
  induction l with
  | nil => rfl
  | cons a rest ih =>
    have tail := ih fun x hx => dropped x (List.mem_cons_of_mem a hx)
    cases kept : p a with
    | true =>
      rw [List.filter_cons_of_pos kept, each, each]
      cases f a with
      | error e => rfl
      | ok b =>
        have more (all : Except ε (List β)) : (all.map fun bs => b :: bs).map (List.filter q) =
            (all.map (List.filter q)).map fun bs => if q b then b :: bs else bs := by
          cases all <;> simp [Except.map, List.filter_cons]
        simp only [more, tail]
    | false =>
      obtain ⟨b, made, out⟩ := dropped a List.mem_cons_self kept
      rw [List.filter_cons_of_neg (by simp [kept]), ← tail, each, made]
      cases each f rest <;> simp [Except.map, out]

namespace Cluster

/-- Whether a MachineDeployment stands for the MachineSet. -/
def represented (c : Cluster) (ms : MachineSet) : Bool :=
  (c.machineSetOwner? ms).toOption.join.isSome

section
variable {c : Cluster} {ms : MachineSet}

theorem represented_iff_owner :
    c.represented ms = true ↔ ∃ md, c.machineSetOwner? ms = .ok (some md) := by
  rw [represented]
  cases c.machineSetOwner? ms with
  | error e => simp [Except.toOption]
  | ok owner => cases owner <;> simp [Except.toOption]

theorem rootOf_of_represented (h : c.represented ms = true) :
    ∃ root, c.rootOf ms = .ok root ∧ root.isMachineSet = false := by
  obtain ⟨md, owner⟩ := represented_iff_owner.mp h
  exact ⟨.machineDeployment md, rootOf_eq_machineDeployment.mpr owner, rfl⟩

end

/-- A root is no MachineSet that is represented, so that revising one leaves it as it is. -/
theorem revised_of_rootOf {c : Cluster} {ms other : MachineSet} (h : c.represented ms = true)
    (x : MachineSet) :
    (c.rootOf x).map (Root.revised (instead ms other) fun md => md) = c.rootOf x := by
  cases above : c.rootOf x with
  | error e => rfl
  | ok root =>
    cases root with
    | machineDeployment md => rfl
    | machineSet own =>
      obtain ⟨rfl, alone⟩ := rootOf_eq_machineSet.mp above
      have ne : own ≠ ms := by
        rintro rfl
        obtain ⟨md, owner⟩ := represented_iff_owner.mp h
        cases alone.symm.trans owner
      simp only [Except.map, Root.revised, instead_of_ne ne]

section
variable {c e : Cluster} {ms other : MachineSet}
  (revised : Revised (instead ms other) (fun md => md) c e) (h : c.represented ms = true)

include revised h

theorem above_of_represented (m : Machine) : e.above m = c.above m := by
  rw [revised.above, above]
  cases c.machineOwner? m with
  | error failed => rfl
  | ok owner =>
    cases owner with
    | none => rfl
    | some x =>
      have kept : (c.rootOf x).map (Root.revised (instead ms other) fun md => md) = c.rootOf x :=
        revised_of_rootOf h x
      cases up : c.rootOf x with
      | error failed => simp [Except.bind, Except.map, up]
      | ok root =>
        rw [up] at kept
        simp only [Except.bind, Option.elim, up, Except.map, Option.map_some, Except.ok.inj kept]

/-- What a look says of an object it says of its revision. -/
theorem judged_of_represented (r : Root) :
    e.judged (r.revised (instead ms other) fun md => md) = c.judged r := by
  cases r with
  | machineDeployment md => rfl
  | machineSet x => rw [Root.revised, judged, judged, revised.rootOf, revised_of_rootOf h]

end

end Cluster

namespace Directory

theorem candidates_eq (d : Directory) : d.candidates =
    ((each d.cluster.rootOf d.scopedSets).map (List.filter Root.isMachineSet)).map fun own =>
      own ++ (d.cluster.machineDeployments.within d.settings.ns).map .machineDeployment := by
  rw [candidates, scopedSets]
  cases each d.cluster.rootOf (d.cluster.machineSets.within d.settings.ns) <;> rfl

/-- The listing depends on the MachineSets that are not represented. -/
theorem candidates_of_represented (d : Directory) {ms other : MachineSet}
    (h : d.cluster.represented ms = true) (hother : d.cluster.represented other = true) :
    (d.reading (d.cluster.withSets (d.cluster.machineSets.replaced ms other))).candidates =
      d.candidates := by
  have dropped (l : List MachineSet) :
      (each d.cluster.rootOf l).map (List.filter Root.isMachineSet) =
        (each d.cluster.rootOf (l.filter fun x => !d.cluster.represented x)).map
          (List.filter Root.isMachineSet) :=
    each_filter fun x _ out => Cluster.rootOf_of_represented (by simpa using out)
  have rootOf : (d.cluster.withSets (d.cluster.machineSets.replaced ms other)).rootOf =
      d.cluster.rootOf := rfl
  rw [candidates_eq, candidates_eq, reading, rootOf, dropped, dropped d.scopedSets, scopedSets,
    scopedSets, Cluster.withSets, Cache.filter_within_replaced (by simp [h]) (by simp [hother])]

/-- The own sizes, labels and cluster name of a MachineSet that is represented are read by no
question. -/
theorem represented_set_inert (d : Directory) (reached : d.cluster.Reached) (ms : MachineSet)
    (hms : ms ∈ d.cluster.machineSets.objects) (md : MachineDeployment)
    (owner : d.cluster.machineSetOwner? ms = .ok (some md)) (other : MachineSet)
    (same : other.metadata.identity = ms.metadata.identity) :
    ∃ e, d.cluster.applied (.machineSet other) = .ok e ∧
      (d.reading e).groups = d.groups ∧
      (∀ id, (d.reading e).lookup id = d.lookup id) ∧
      (∀ n, (d.reading e).groupForNode n = d.groupForNode n) ∧
      ∀ g : NodeGroup, g.summary e = g.summary d.cluster := by
  have h : d.cluster.represented ms = true := Cluster.represented_iff_owner.mpr ⟨md, owner⟩
  have hother : d.cluster.represented other = true :=
    Cluster.represented_iff_owner.mpr ⟨md, (owner?_of_identity same _).trans owner⟩
  obtain ⟨went, -, revised⟩ := Cluster.applied_machineSet reached hms same
  refine ⟨_, went, ?_, fun id => ?_, fun n => ?_, fun g => ?_⟩
  · rw [groups, groups, d.candidates_of_represented h hother]
  · rw [lookup_eq, lookup_eq, reading, revised.held?]
    cases d.cluster.held? id with
    | none => rfl
    | some r => simp only [Option.map_some, Option.elim, Cluster.judged_of_represented revised h]
  · rw [groupForNode_eq, groupForNode_eq, reading, revised.machineForNode?]
    simp only [Cluster.above_of_represented revised h]
  · exact NodeGroup.summary_congr rfl (revised.machines_eq reached.machines.keyed rfl rfl)

end Directory

namespace Lab

/-- `part` with sizes that would make a group of it. -/
def grownPart : MachineSet where
  metadata := { part.metadata with
    annotations := some [(minSizeEntry, "1"), (maxSizeEntry, "9")]
    labels := some [("tier", "spare")] }
  clusterName := "other"
  declared := some 7

/-- In the small cluster `part` can be given other sizes and nothing comes of it. -/
theorem grownPart_unseen : directory.cluster.Reached ∧
    part ∈ directory.cluster.machineSets.objects ∧
    directory.cluster.machineSetOwner? part = .ok (some fleet) ∧
    grownPart.metadata.identity = part.metadata.identity ∧
    ∃ e, directory.cluster.applied (.machineSet grownPart) = .ok e ∧
      (directory.reading e).groups = .ok [soloGroup, fleetGroup] ∧
      (directory.reading e).lookup ⟨.machineSet, "lab", "part"⟩ = .ok .notScalable ∧
      (directory.reading e).groupForNode nodeB = .ok (some fleetGroup) ∧
      fleetGroup.summary e = fleetGroup.summary directory.cluster := by
  have hpart : part ∈ directory.cluster.machineSets.objects := by decide
  obtain ⟨e, applied, listed, looked, walked, summed⟩ :=
    Directory.represented_set_inert directory reached part hpart fleet rfl grownPart rfl
  exact ⟨reached, hpart, rfl, rfl, e, applied, listed.trans groups_eq,
    (looked _).trans rfl, (walked nodeB).trans rfl, summed fleetGroup⟩

end Lab
end NodeGroups
