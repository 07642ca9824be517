import NodeGroups.Proofs.Dependence

/-!
# Putting an object in the place of another one

An object that is applied under the key of a cached one takes its place: a look that found the
one finds the other, and no other look changes (`Cache.Revised`). If the two have one identity,
owners are followed as before, and every way up leads to the revision of the root that it led
to. The Machines below a root stay what they were.
-/
namespace NodeGroups

section
variable {α : Type} [DecidableEq α]

/-- One object in the place of another one. -/
def instead (a b x : α) : α := if x = a then b else x

variable {a b x : α}

@[simp]
theorem instead_self : instead a b a = b := if_pos rfl

theorem instead_of_ne (h : x ≠ a) : instead a b x = x := if_neg h

end

namespace Cache

section
variable {α : Type} [Resource α]

/-- The second cache has, of every object of the first one, the revision. -/
structure Revised (f : α → α) (c e : Cache α) : Prop where
  identity : ∀ a, (Resource.metadata (f a)).identity = (Resource.metadata a).identity
  looks : ∀ ns name, e.get? ns name = (c.get? ns name).map f
  perm : e.objects.Perm (c.objects.map f)

theorem Revised.refl (c : Cache α) : Revised (fun a => a) c c :=
  ⟨fun _ => rfl, fun _ _ => by simp, .of_eq (by simp)⟩

section
variable {f : α → α} {c e : Cache α} (h : Revised f c e)

include h

theorem Revised.within_perm (ns : Option String) : (e.within ns).Perm ((c.within ns).map f) := by
  cases ns with
  | none =>
    rw [within_none, within_none]
    exact h.perm
  | some s =>
    have kept : housed s ∘ f = housed s := by
      funext a
      simp only [Function.comp, housed, Metadata.ns_of_identity (h.identity a)]
    rw [within_some, within_some]
    exact (h.perm.filter _).trans (.of_eq (by rw [List.filter_map, kept]))

/-- An owner is found under its name and uid, which its revision has as well. -/
theorem Revised.owner? (owned : Metadata) :
    NodeGroups.owner? owned e = (NodeGroups.owner? owned c).map fun found => found.map f := by
  rw [owner?_eq, owner?_eq]
  cases owned.ownerKey? (Resource.kind α) with
  | error failed => rfl
  | ok asked =>
    cases asked with
    | none => rfl
    | some look =>
      simp only [Except.map, Option.bind_some, h.looks]
      cases c.get? look.1.ns? look.1.name with
      | none => rfl
      | some o =>
        simp only [Option.map_some, Option.filter, Metadata.uid_of_identity (h.identity o)]
        split <;> rfl

end

theorem filter_insertInOrder {p : α → Bool} {b : α} (h : p b = false) (l : List α) :
    (insertInOrder b l).filter p = l.filter p := by
  induction l with
  | nil => simp [insertInOrder, h]
  | cons a rest ih =>
    rw [insertInOrder]
    split
    · rw [List.filter_cons, List.filter_cons, ih]
    · simp [List.filter_cons, h]

variable [DecidableEq α] {c : Cache α}

/-- To remove a key is to remove the one object that has it. -/
theorem Keyed.remove_eq_filter (h : c.Keyed) {a : α} (ha : a ∈ c.objects)
    {key : Option String × String} (hk : c.keyOf a = some key) :
    (c.remove key).objects = c.objects.filter fun x => x ≠ a := by
  refine List.filter_congr fun x hx => ?_
  rw [Bool.eq_iff_iff, bne_iff_ne, decide_eq_true_iff]
  refine not_congr ⟨fun same => ?_, fun same => same ▸ hk⟩
  exact List.inj_on_of_nodup_map h.distinct hx ha (same.trans hk.symm)

/-- An object is deleted by its namespace and its name. -/
theorem Keyed.delete_eq_filter (h : c.Keyed) {a : α} (ha : a ∈ c.objects) :
    (c.delete (Resource.metadata a).ns ((Resource.metadata a).name.getD "")).objects =
      c.objects.filter fun x => x ≠ a := by
  obtain ⟨⟨ns, name⟩, hk⟩ := Option.ne_none_iff_exists'.mp (h.hasKey a ha)
  obtain ⟨place, named⟩ := keyOf_eq_some hk
  rw [delete, place, named]
  exact h.remove_eq_filter ha hk

/-- The cache with the second object in the place of the first one. -/
def replaced (c : Cache α) (a b : α) : Cache α :=
  { c with objects := insertInOrder b (c.objects.filter fun x => x ≠ a) }

theorem mem_replaced_iff {a b x : α} :
    x ∈ (c.replaced a b).objects ↔ x = b ∨ x ∈ c.objects ∧ x ≠ a := by
  rw [replaced, (insertInOrder_perm _ _).mem_iff, List.mem_cons, List.mem_filter,
    decide_eq_true_iff]

/-- Objects that are told apart from both are listed as they were. -/
theorem filter_replaced {a b : α} {p : α → Bool} (ha : p a = false) (hb : p b = false) :
    (c.replaced a b).objects.filter p = c.objects.filter p := by
  rw [replaced, filter_insertInOrder hb, List.filter_filter]
  refine List.filter_congr fun x _ => ?_
  by_cases hx : x = a
  · simp [hx, ha]
  · simp [hx]

theorem filter_within_replaced {a b : α} {p : α → Bool} (ha : p a = false) (hb : p b = false)
    (ns : Option String) : ((c.replaced a b).within ns).filter p = (c.within ns).filter p := by
  rw [within, within, list, list, List.filter_comm, filter_replaced ha hb, List.filter_comm]

/-- An object that is applied under the key of a cached one is put in its place. -/
theorem Keyed.apply_of_keyOf (h : c.Keyed) {a b : α} (ha : a ∈ c.objects)
    (same : c.keyOf b = c.keyOf a) : c.apply b = .ok (c.replaced a b) := by
  obtain ⟨key, hk⟩ := Option.ne_none_iff_exists'.mp (h.hasKey a ha)
  exact apply_eq_ok_iff.mpr
    ⟨key, same.trans hk, by rw [Cache.replaced, h.remove_eq_filter ha hk]⟩

section
variable {a b : α} (h : c.Keyed) (ha : a ∈ c.objects)
  (same : (Resource.metadata b).identity = (Resource.metadata a).identity)

include h ha same

theorem Keyed.apply_eq_replaced : c.apply b = .ok (c.replaced a b) :=
  h.apply_of_keyOf ha
    (keyOf_of_name (Metadata.ns_of_identity same) (Metadata.name_of_identity same))

theorem Keyed.replaced : (c.replaced a b).Keyed :=
  h.apply (h.apply_eq_replaced ha same)

theorem Keyed.under?_replaced (key : Option String × String) :
    (c.replaced a b).under? key = (c.under? key).map (instead a b) := by
  have keyed := h.replaced ha same
  have keys : c.keyOf b = c.keyOf a :=
    keyOf_of_name (Metadata.ns_of_identity same) (Metadata.name_of_identity same)
  ext x
  rw [keyed.under?_eq_some_iff, Option.map_eq_some_iff, mem_replaced_iff]
  change _ ∧ c.keyOf x = some key ↔ _
  simp only [h.under?_eq_some_iff]
  constructor
  · rintro ⟨rfl | ⟨hx, ne⟩, hk⟩
    · exact ⟨a, ⟨ha, keys.symm.trans hk⟩, instead_self⟩
    · exact ⟨x, ⟨hx, hk⟩, instead_of_ne ne⟩
  · rintro ⟨y, ⟨hy, hk⟩, rfl⟩
    by_cases ne : y = a
    · subst ne
      rw [instead_self]
      exact ⟨Or.inl rfl, keys.trans hk⟩
    · rw [instead_of_ne ne]
      exact ⟨Or.inr ⟨hy, ne⟩, hk⟩

/-- What is applied under the key of another object stands for that object. -/
theorem Keyed.revised : Revised (instead a b) c (c.replaced a b) where
  identity x := by
    by_cases hx : x = a
    · rw [hx, instead_self, same]
    · rw [instead_of_ne hx]
  looks ns name := by
    have looks := h.under?_replaced ha same
    have keying : (c.replaced a b).keying = c.keying := rfl
    rw [get?, get?, keying]
    cases c.keying with
    | folding => exact looks _
    | exact =>
      simp only [looks]
      cases c.under? (ns, name) <;> rfl
  perm := by
    have others : (c.objects.filter fun x => x ≠ a).map (instead a b) =
        c.objects.filter fun x => x ≠ a := by
      refine (List.map_congr_left fun x hx => ?_).trans (List.map_id _)
      exact instead_of_ne (of_decide_eq_true (List.mem_filter.mp hx).2)
    have parted : c.objects.Perm (a :: c.objects.filter fun x => x ≠ a) := by
      have erased : c.objects.erase a = c.objects.filter fun x => x ≠ a :=
        (h.nodup.erase_eq_filter a).trans
          (List.filter_congr fun x _ => by by_cases hx : x = a <;> simp [hx])
      exact erased ▸ List.perm_cons_erase ha
    have mapped := parted.map (instead a b)
    rw [List.map_cons, instead_self, others] at mapped
    exact (insertInOrder_perm _ _).trans mapped.symm

end

end

/-- Those that carry bounds are no different without them. -/
theorem Revised.bare_perm {kind : ScalableKind} {f : Scalable kind → Scalable kind}
    {c e : Cache (Scalable kind)} (h : Revised f c e) (ns : Option String) :
    ((e.within ns).map Scalable.bare).Perm ((c.within ns).map Scalable.bare) := by
  have bare : Scalable.bare ∘ f = Scalable.bare := by
    funext s
    exact congrArg (fun m => (⟨m, "", none⟩ : Scalable kind)) (h.identity s)
  have mapped := (h.within_perm ns).map Scalable.bare
  rwa [List.map_map, bare] at mapped

end Cache

/-- The root with its object revised. -/
def Root.revised (f : MachineSet → MachineSet) (h : MachineDeployment → MachineDeployment) :
    Root → Root
  | .machineSet ms => .machineSet (f ms)
  | .machineDeployment md => .machineDeployment (h md)

namespace Cluster

/-- The second cluster has the Nodes and Machines of the first one and its scalable objects
revised. -/
structure Revised (f : MachineSet → MachineSet) (h : MachineDeployment → MachineDeployment)
    (c e : Cluster) : Prop where
  nodes : e.nodes = c.nodes
  machines : e.machines = c.machines
  machineSets : c.machineSets.Revised f e.machineSets
  machineDeployments : c.machineDeployments.Revised h e.machineDeployments

namespace Revised

variable {f : MachineSet → MachineSet} {h : MachineDeployment → MachineDeployment}
  {c e : Cluster} (revised : Revised f h c e)

include revised

theorem machineForNode? : e.machineForNode? = c.machineForNode? := by
  funext n
  obtain ⟨nodes, machines, sets, deployments⟩ := c
  obtain ⟨nodese, machinese, setse, deploymentse⟩ := e
  cases revised.nodes
  cases revised.machines
  rfl

theorem rootOf (ms : MachineSet) : e.rootOf (f ms) = (c.rootOf ms).map (Root.revised f h) := by
  have same : e.machineSetOwner? (f ms) = (c.machineSetOwner? ms).map fun found => found.map h :=
    (owner?_of_identity (revised.machineSets.identity ms) _).trans
      (revised.machineDeployments.owner? ms.metadata)
  rw [Cluster.rootOf, Cluster.rootOf, same]
  cases c.machineSetOwner? ms with
  | error failed => rfl
  | ok owner => cases owner <;> rfl

theorem above (m : Machine) :
    e.above m = (c.above m).map fun root => root.map (Root.revised f h) := by
  have same : e.machineOwner? m = (c.machineOwner? m).map fun found => found.map f :=
    revised.machineSets.owner? m.metadata
  rw [Cluster.above, Cluster.above, same]
  cases c.machineOwner? m with
  | error failed => rfl
  | ok owner =>
    cases owner with
    | none => rfl
    | some ms =>
      simp only [Except.map, Except.bind, Option.map_some, Option.elim, revised.rootOf]
      cases c.rootOf ms <;> rfl

theorem held? (id : GroupId) : e.held? id = (c.held? id).map (Root.revised f h) := by
  rw [Cluster.held?, Cluster.held?]
  cases id.kind with
  | machineSet =>
    simp only [revised.machineSets.looks]
    cases c.machineSets.get? (some id.ns) id.name <;> rfl
  | machineDeployment =>
    simp only [revised.machineDeployments.looks]
    cases c.machineDeployments.get? (some id.ns) id.name <;> rfl

theorem bare (r : Root) : (r.revised f h).bare = r.bare := by
  cases r with
  | machineSet ms =>
    exact congrArg (fun m => Root.machineSet ⟨m, "", none⟩) (revised.machineSets.identity ms)
  | machineDeployment md =>
    exact congrArg (fun m => Root.machineDeployment ⟨m, "", none⟩)
      (revised.machineDeployments.identity md)

/-- The Machines of a group are the same, whether or not its own root was revised. -/
theorem machines_eq {g k : NodeGroup} (keyed : c.machines.Keyed) (ns : g.id.ns = k.id.ns)
    (root : g.root.bare = k.root.bare) : k.machines e = g.machines c := by
  refine (NodeGroup.machines_congr ns ?_ ?_ keyed root).symm
  · exact .of_eq (by rw [revised.machines])
  · exact (revised.machineSets.bare_perm _).symm

theorem members_eq {g k : NodeGroup} (keyed : c.machines.Keyed) (ns : g.id.ns = k.id.ns)
    (root : g.root.bare = k.root.bare) : k.members e = g.members c :=
  NodeGroup.members_congr revised.nodes (revised.machines_eq keyed ns root)

/-- The roots are the revisions of the roots. -/
theorem isRoot_iff {r : Root} : e.IsRoot r ↔ ∃ t, c.IsRoot t ∧ t.revised f h = r := by
  have cached {α : Type} [Resource α] {c e : Cache α} {f : α → α} {a : α}
      (revised : Cache.Revised f c e) : a ∈ e.objects ↔ ∃ b ∈ c.objects, f b = a := by
    rw [revised.perm.mem_iff, List.mem_map]
  cases r with
  | machineSet ms =>
    rw [IsRoot, cached revised.machineSets]
    constructor
    · rintro ⟨⟨own, hown, rfl⟩, above⟩
      rw [revised.rootOf] at above
      obtain ⟨t, up, same⟩ : ∃ t, c.rootOf own = .ok t ∧ t.revised f h = .machineSet (f own) := by
        cases up : c.rootOf own with
        | error failed => simp [up, Except.map] at above
        | ok t => exact ⟨t, rfl, by simpa [up, Except.map] using above⟩
      cases t with
      | machineDeployment md => cases same
      | machineSet other =>
        obtain ⟨rfl, -⟩ := rootOf_eq_machineSet.mp up
        exact ⟨.machineSet other, ⟨hown, up⟩, rfl⟩
    · rintro ⟨t, root, same⟩
      cases t with
      | machineDeployment md => cases same
      | machineSet own =>
        cases same
        refine ⟨⟨own, root.1, rfl⟩, ?_⟩
        rw [revised.rootOf, root.2]
        rfl
  | machineDeployment md =>
    rw [IsRoot, cached revised.machineDeployments]
    constructor
    · rintro ⟨own, hown, rfl⟩
      exact ⟨.machineDeployment own, hown, rfl⟩
    · rintro ⟨t, root, same⟩
      cases t with
      | machineSet own => cases same
      | machineDeployment own =>
        cases same
        exact ⟨own, root, rfl⟩

end Revised

/-- The cluster with other MachineSets. -/
def withSets (c : Cluster) (sets : Cache MachineSet) : Cluster := { c with machineSets := sets }

/-- The cluster with other MachineDeployments. -/
def withDeployments (c : Cluster) (deployments : Cache MachineDeployment) : Cluster :=
  { c with machineDeployments := deployments }

/-- Applies the object of a root to the cache of its kind. -/
def applied (c : Cluster) : Root → Except Error Cluster
  | .machineSet ms => (c.machineSets.apply ms).map c.withSets
  | .machineDeployment md => (c.machineDeployments.apply md).map c.withDeployments

section
variable {c : Cluster} (reached : c.Reached)

include reached

theorem applied_machineSet {ms other : MachineSet} (hms : ms ∈ c.machineSets.objects)
    (same : other.metadata.identity = ms.metadata.identity) :
    c.applied (.machineSet other) = .ok (c.withSets (c.machineSets.replaced ms other)) ∧
      (c.withSets (c.machineSets.replaced ms other)).Reached ∧
      Revised (instead ms other) (fun md => md) c
        (c.withSets (c.machineSets.replaced ms other)) := by
  have keyed := reached.machineSets.keyed
  have went := keyed.apply_eq_replaced hms same
  refine ⟨by rw [applied, went]; rfl, ?_, rfl, rfl, keyed.revised hms same, .refl _⟩
  exact { reached with machineSets := reached.machineSets.apply went }

theorem applied_machineDeployment {md other : MachineDeployment}
    (hmd : md ∈ c.machineDeployments.objects)
    (same : other.metadata.identity = md.metadata.identity) :
    c.applied (.machineDeployment other) =
        .ok (c.withDeployments (c.machineDeployments.replaced md other)) ∧
      (c.withDeployments (c.machineDeployments.replaced md other)).Reached ∧
      Revised (fun ms => ms) (instead md other) c
        (c.withDeployments (c.machineDeployments.replaced md other)) := by
  have keyed := reached.machineDeployments.keyed
  have went := keyed.apply_eq_replaced hmd same
  refine ⟨by rw [applied, went]; rfl, ?_, rfl, rfl, .refl _, keyed.revised hmd same⟩
  exact { reached with machineDeployments := reached.machineDeployments.apply went }

end

end Cluster
end NodeGroups
