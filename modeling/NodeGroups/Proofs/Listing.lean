import Mathlib.Data.List.Nodup
import NodeGroups.Proofs.Bounds
import NodeGroups.Proofs.GroupIds
import NodeGroups.Proofs.Owners

/-!
# Listing the node groups

A listing goes through the roots in scope (`Directory.roots`): the MachineSets that no
MachineDeployment stands for and all MachineDeployments. It fails at the first owner that
cannot be followed, else at the first misconfigured root, else it has one group for each root
that qualifies (`Directory.groups_cases`, `Directory.mem_groups_iff`), in the order of their
identifiers, of which no two are the same.
-/
namespace NodeGroups

section
variable {ε α β : Type} {f : α → Except ε β} {l : List α}

theorem each_eq_ok {bs : List β} (h : each f l = .ok bs) : l.map f = bs.map .ok := by
  induction l generalizing bs with
  | nil =>
    cases h
    rfl
  | cons a rest ih =>
    rw [each] at h
    cases ha : f a with
    | error e => simp [ha] at h
    | ok b =>
      cases hr : each f rest with
      | error e => simp [ha, hr, Except.map] at h
      | ok more =>
        simp only [ha, hr, Except.map, Except.ok.injEq] at h
        subst h
        simp [ha, ih hr]

theorem each_eq_error {e : ε} (h : each f l = .error e) : ∃ a ∈ l, f a = .error e := by
  induction l with
  | nil => cases h
  | cons a rest ih =>
    rw [each] at h
    cases ha : f a with
    | error other =>
      simp only [ha, Except.error.injEq] at h
      exact ⟨a, List.mem_cons_self, by rw [ha, h]⟩
    | ok b =>
      cases hr : each f rest with
      | error other =>
        simp only [ha, hr, Except.map, Except.error.injEq] at h
        obtain ⟨c, hc, failed⟩ := ih (h ▸ hr)
        exact ⟨c, List.mem_cons_of_mem a hc, failed⟩
      | ok more => simp [ha, hr, Except.map] at h

theorem exists_ok_of_each {bs : List β} (h : each f l = .ok bs) {a : α} (ha : a ∈ l) :
    ∃ b ∈ bs, f a = .ok b := by
  have hf : f a ∈ bs.map Except.ok := each_eq_ok h ▸ List.mem_map_of_mem ha
  obtain ⟨b, hb, he⟩ := List.mem_map.mp hf
  exact ⟨b, hb, he.symm⟩

end

namespace Settings

/-- A listing within the scope has the objects that carry this metadata. -/
def Covers (s : Settings) (m : Metadata) : Prop := ∀ ns, s.ns = some ns → m.ns = some ns

theorem covers_of_unscoped {s : Settings} (unscoped : s.ns = none) (m : Metadata) :
    s.Covers m := by
  intro ns scope
  cases unscoped.symm.trans scope

theorem mem_within_scope {α : Type} [Resource α] {s : Settings} {c : Cache α} {a : α} :
    a ∈ c.within s.ns ↔ a ∈ c.objects ∧ s.Covers (Resource.metadata a) := Cache.mem_within_iff

end Settings

/-- An identifier is in the namespace of its root, an absent one being the empty one. -/
theorem Root.ns_of_id {r : Root} {id : GroupId} (h : r.id = .ok id) :
    r.metadata.ns.getD "" = id.ns :=
  (Metadata.key_eq_ok_iff.mp (Root.id_eq_ok_iff.mp h).2).1

namespace Cluster

/-- No MachineDeployment stands for the MachineSet. -/
def isOwnRoot (c : Cluster) (ms : MachineSet) : Bool :=
  match c.rootOf ms with
  | .ok root => root.isMachineSet
  | .error _ => false

theorem isOwnRoot_iff {c : Cluster} {ms : MachineSet} :
    c.isOwnRoot ms = true ↔ c.rootOf ms = .ok (.machineSet ms) := by
  rw [isOwnRoot]
  cases hr : c.rootOf ms with
  | error e => simp
  | ok root =>
    cases root with
    | machineSet other =>
      obtain ⟨rfl, -⟩ := rootOf_eq_machineSet.mp hr
      simp [Root.isMachineSet]
    | machineDeployment md => simp [Root.isMachineSet]

/-- A cached object that nothing else stands for. -/
def IsRoot (c : Cluster) : Root → Prop
  | .machineSet ms => ms ∈ c.machineSets.objects ∧ c.rootOf ms = .ok (.machineSet ms)
  | .machineDeployment md => md ∈ c.machineDeployments.objects

theorem IsRoot.placed {c : Cluster} (placed : c.Placed) {r : Root} (h : c.IsRoot r) :
    r.metadata.Placed := by
  cases r with
  | machineSet ms => exact placed.machineSets ms h.1
  | machineDeployment md => exact placed.machineDeployments md h

theorem filter_isMachineSet {c : Cluster} {l : List MachineSet} {roots : List Root}
    (h : each c.rootOf l = .ok roots) :
    roots.filter Root.isMachineSet = (l.filter c.isOwnRoot).map .machineSet := by
  have hm := each_eq_ok h
  clear h
  induction l generalizing roots with
  | nil =>
    cases roots with
    | nil => rfl
    | cons root more => cases hm
  | cons ms rest ih =>
    cases roots with
    | nil => cases hm
    | cons root more =>
      obtain ⟨hr, hrest⟩ := List.cons.inj hm
      have tail := ih hrest
      cases root with
      | machineSet other =>
        obtain ⟨rfl, -⟩ := rootOf_eq_machineSet.mp hr
        have own := isOwnRoot_iff.mpr hr
        rw [List.filter_cons_of_pos rfl, tail, List.filter_cons_of_pos own, List.map_cons]
      | machineDeployment md =>
        have other : ¬ c.isOwnRoot ms = true := by simp [isOwnRoot, hr, Root.isMachineSet]
        rw [List.filter_cons_of_neg Bool.false_ne_true, tail, List.filter_cons_of_neg other]

end Cluster

namespace Directory

/-- The MachineSets in scope, each of which is asked for its owner. -/
def scopedSets (d : Directory) : List MachineSet := d.cluster.machineSets.within d.settings.ns

/-- The roots in scope as the listing goes through them. -/
def roots (d : Directory) : List Root :=
  (d.scopedSets.filter d.cluster.isOwnRoot).map .machineSet ++
    (d.cluster.machineDeployments.within d.settings.ns).map .machineDeployment

theorem mem_roots_iff {d : Directory} {r : Root} :
    r ∈ d.roots ↔ d.cluster.IsRoot r ∧ d.settings.Covers r.metadata := by
  rw [roots, List.mem_append, List.mem_map, List.mem_map]
  cases r with
  | machineSet ms =>
    simp only [List.mem_filter, Cluster.isOwnRoot_iff, scopedSets, Settings.mem_within_scope,
      Root.machineSet.injEq, exists_eq_right, reduceCtorEq, and_false, exists_false, or_false]
    exact and_right_comm
  | machineDeployment md =>
    simp only [reduceCtorEq, and_false, exists_false, false_or, Settings.mem_within_scope,
      Root.machineDeployment.injEq, exists_eq_right]
    exact Iff.rfl

theorem candidates_of_ok {d : Directory} {all : List Root}
    (h : each d.cluster.rootOf d.scopedSets = .ok all) : d.candidates = .ok d.roots := by
  rw [roots, ← Cluster.filter_isMachineSet h]
  rw [scopedSets] at h
  rw [candidates, h]

theorem candidates_of_error {d : Directory} {e : Error}
    (h : each d.cluster.rootOf d.scopedSets = .error e) : d.candidates = .error e := by
  rw [scopedSets] at h
  rw [candidates, h]

/-- What a listing can come to, with what each of the outcomes rests on. -/
theorem groups_cases (d : Directory) :
    (∃ ms ∈ d.scopedSets, ∃ e, d.cluster.rootOf ms = .error e ∧ d.groups = .error e) ∨
    ((∀ ms ∈ d.scopedSets, ∃ r, d.cluster.rootOf ms = .ok r) ∧
      ((∃ r ∈ d.roots, ∃ e, r.group? = .error e ∧ d.groups = .error e) ∨
        ∃ found, each Root.group? d.roots = .ok found ∧
          d.groups = .ok ((found.filterMap fun group => group).mergeSort
            fun a b => a.id.le b.id))) := by
  cases hc : each d.cluster.rootOf d.scopedSets with
  | error e =>
    obtain ⟨ms, hms, failed⟩ := each_eq_error hc
    exact Or.inl ⟨ms, hms, e, failed, by rw [groups, candidates_of_error hc]⟩
  | ok all =>
    refine Or.inr ⟨fun ms hms => ?_, ?_⟩
    · obtain ⟨root, -, hr⟩ := exists_ok_of_each hc hms
      exact ⟨root, hr⟩
    · have went := candidates_of_ok hc
      cases hg : each Root.group? d.roots with
      | error e =>
        obtain ⟨r, hr, failed⟩ := each_eq_error hg
        exact Or.inl ⟨r, hr, e, failed, by rw [groups, went]; simp only [hg, Except.map]⟩
      | ok found =>
        exact Or.inr ⟨found, rfl, by rw [groups, went]; simp only [hg, Except.map]⟩

theorem found_of_groups {d : Directory} {gs : List NodeGroup} (h : d.groups = .ok gs) :
    ∃ found, each Root.group? d.roots = .ok found ∧
      gs = (found.filterMap fun group => group).mergeSort fun a b => a.id.le b.id := by
  rcases d.groups_cases with ⟨_, _, e, -, failed⟩ | ⟨-, ⟨_, _, e, -, failed⟩ | ⟨found, hf, went⟩⟩
  · cases h.symm.trans failed
  · cases h.symm.trans failed
  · exact ⟨found, hf, Except.ok.inj (h.symm.trans went)⟩

/-- A listing goes well when in its scope every owner can be followed and no root fails. -/
theorem exists_groups_iff {d : Directory} : (∃ gs, d.groups = .ok gs) ↔
    (∀ ms ∈ d.scopedSets, ∃ r, d.cluster.rootOf ms = .ok r) ∧
      ∀ r ∈ d.roots, ∃ group, r.group? = .ok group := by
  constructor
  · rintro ⟨gs, h⟩
    rcases d.groups_cases with ⟨_, -, _, -, failed⟩ |
      ⟨followed, ⟨_, -, _, -, failed⟩ | ⟨found, all, -⟩⟩
    · cases h.symm.trans failed
    · cases h.symm.trans failed
    · refine ⟨followed, fun r hr => ?_⟩
      obtain ⟨group, -, grouped⟩ := exists_ok_of_each all hr
      exact ⟨group, grouped⟩
  · rintro ⟨followed, grouped⟩
    rcases d.groups_cases with ⟨ms, hms, _, failed, -⟩ | ⟨-, ⟨r, hr, _, failed, -⟩ | ⟨_, -, went⟩⟩
    · obtain ⟨root, above⟩ := followed ms hms
      cases failed.symm.trans above
    · obtain ⟨group, went⟩ := grouped r hr
      cases failed.symm.trans went
    · exact ⟨_, went⟩

/-- Groups that are found in the order of their identifiers are listed as they are. -/
theorem groups_of_ascending {d : Directory} {roots : List Root} {found : List (Option NodeGroup)}
    (hc : d.candidates = .ok roots) (hf : each Root.group? roots = .ok found)
    (ascending : (found.filterMap fun group => group).Pairwise fun a b => a.id.le b.id = true) :
    d.groups = .ok (found.filterMap fun group => group) := by
  rw [groups, hc]
  simp only [hf, Except.map, List.mergeSort_of_pairwise ascending]

/-- A listed group is the one of a root in scope, and each such group is listed. -/
theorem mem_groups_iff {d : Directory} {gs : List NodeGroup} (h : d.groups = .ok gs)
    {g : NodeGroup} : g ∈ gs ↔ d.cluster.IsRoot g.root ∧
      d.settings.Covers g.root.metadata ∧ g.root.group? = .ok (some g) := by
  obtain ⟨found, hf, rfl⟩ := found_of_groups h
  rw [List.mem_mergeSort, List.mem_filterMap]
  constructor
  · rintro ⟨_, hg, rfl⟩
    have hg : Except.ok (some g) ∈ found.map (Except.ok (ε := Error)) := List.mem_map_of_mem hg
    rw [← each_eq_ok hf] at hg
    obtain ⟨r, hr, grouped⟩ := List.mem_map.mp hg
    obtain ⟨_, _, -, -, rfl⟩ := Root.group?_eq_some_iff.mp grouped
    exact ⟨(mem_roots_iff.mp hr).1, (mem_roots_iff.mp hr).2, grouped⟩
  · rintro ⟨root, covered, grouped⟩
    obtain ⟨b, hb, hok⟩ := exists_ok_of_each hf (mem_roots_iff.mpr ⟨root, covered⟩)
    cases grouped.symm.trans hok
    exact ⟨some g, hb, rfl⟩

theorem mem_groups_iff_root {d : Directory} {gs : List NodeGroup} (h : d.groups = .ok gs)
    {g : NodeGroup} : g ∈ gs ↔ ∃ r ∈ d.roots, r.group? = .ok (some g) := by
  rw [mem_groups_iff h, ← and_assoc, ← mem_roots_iff]
  constructor
  · rintro ⟨root, grouped⟩
    exact ⟨g.root, root, grouped⟩
  · rintro ⟨r, root, grouped⟩
    rw [(Root.id_of_group? grouped).1]
    exact ⟨root, grouped⟩

theorem roots_nodup {d : Directory} (reached : d.cluster.Reached) : d.roots.Nodup := by
  have sets := (reached.machineSets.keyed.within_nodup d.settings.ns).filter d.cluster.isOwnRoot
  have deployments := reached.machineDeployments.keyed.within_nodup d.settings.ns
  refine List.Nodup.append (sets.map ?_) (deployments.map ?_) ?_
  · exact fun a b h => Root.machineSet.inj h
  · exact fun a b h => Root.machineDeployment.inj h
  · intro r hs hd
    obtain ⟨ms, -, rfl⟩ := List.mem_map.mp hs
    obtain ⟨md, -, he⟩ := List.mem_map.mp hd
    cases he

/-- Every group comes from a root of its own. -/
theorem found_roots_sublist {l : List Root} {found : List (Option NodeGroup)}
    (h : l.map Root.group? = found.map .ok) :
    ((found.filterMap fun group => group).map NodeGroup.root).Sublist l := by
  induction l generalizing found with
  | nil =>
    cases found with
    | nil => exact .refl _
    | cons group more => cases h
  | cons r rest ih =>
    cases found with
    | nil => cases h
    | cons group more =>
      obtain ⟨hr, hrest⟩ := List.cons.inj h
      cases group with
      | none => exact (ih hrest).cons r
      | some g =>
        obtain ⟨_, _, -, -, rfl⟩ := Root.group?_eq_some_iff.mp hr
        exact (ih hrest).cons_cons r

theorem groups_nodup {d : Directory} (reached : d.cluster.Reached) {gs : List NodeGroup}
    (h : d.groups = .ok gs) : gs.Nodup := by
  obtain ⟨found, hf, rfl⟩ := found_of_groups h
  have distinct := (found_roots_sublist (each_eq_ok hf)).nodup (roots_nodup reached)
  exact (List.mergeSort_perm _ _).nodup_iff.mpr (distinct.of_map _)

end Directory

/-- No two roots have one identifier. -/
def Cluster.RootsApart (c : Cluster) : Prop :=
  ∀ ⦃r s : Root⦄ ⦃id : GroupId⦄, c.IsRoot r → c.IsRoot s → r.id = .ok id → s.id = .ok id → r = s

/-- A root is known by its identifier where looks for owners stay in their namespace. -/
theorem Cluster.Reached.rootsApart {c : Cluster} (reached : c.Reached) (stay : c.OwnersStay) :
    c.RootsApart := by
  intro r s id hr hs hri hsi
  obtain ⟨kindr, keyr⟩ := Root.id_eq_ok_iff.mp hri
  obtain ⟨kinds, keys⟩ := Root.id_eq_ok_iff.mp hsi
  cases r with
  | machineSet a =>
    cases s with
    | machineSet b =>
      rw [reached.machineSets.keyed.eq_of_key stay.machineSets hr.1 hs.1 keyr keys]
    | machineDeployment b => cases kindr.trans kinds.symm
  | machineDeployment a =>
    cases s with
    | machineSet b => cases kindr.trans kinds.symm
    | machineDeployment b =>
      rw [reached.machineDeployments.keyed.eq_of_key stay.machineDeployments hr hs keyr keys]

namespace Directory

variable {d : Directory} {gs : List NodeGroup}

theorem id_of_mem_groups (h : d.groups = .ok gs) {g : NodeGroup} (hg : g ∈ gs) :
    g.root.id = .ok g.id :=
  (Root.id_of_group? ((mem_groups_iff h).mp hg).2.2).2

theorem eq_of_mem_groups_of_apart (apart : d.cluster.RootsApart) (h : d.groups = .ok gs)
    {g k : NodeGroup} (hg : g ∈ gs) (hk : k ∈ gs) (same : g.id = k.id) : g = k := by
  obtain ⟨rootg, -, groupedg⟩ := (mem_groups_iff h).mp hg
  obtain ⟨rootk, -, groupedk⟩ := (mem_groups_iff h).mp hk
  have roots := apart rootg rootk (id_of_mem_groups h hg) (same ▸ id_of_mem_groups h hk)
  rw [roots] at groupedg
  cases groupedg.symm.trans groupedk
  rfl

theorem eq_of_mem_groups (reached : d.cluster.Reached) (stay : d.cluster.OwnersStay)
    (h : d.groups = .ok gs) {g k : NodeGroup} (hg : g ∈ gs) (hk : k ∈ gs) (same : g.id = k.id) :
    g = k :=
  eq_of_mem_groups_of_apart (reached.rootsApart stay) h hg hk same

/-- The identifiers of a listing go up without repeating. -/
theorem groups_ascending_of_apart (reached : d.cluster.Reached) (apart : d.cluster.RootsApart)
    (h : d.groups = .ok gs) : gs.Pairwise fun a b => a.id.Before b.id := by
  have sorted : gs.Pairwise fun a b => a.id.le b.id = true := by
    obtain ⟨found, -, rfl⟩ := found_of_groups h
    have trans : ∀ a b c : NodeGroup, a.id.le b.id = true → b.id.le c.id = true →
        a.id.le c.id = true := fun _ _ _ => GroupId.le_trans
    have total : ∀ a b : NodeGroup, (a.id.le b.id || b.id.le a.id) = true := fun a b =>
      Bool.or_eq_true _ _ ▸ GroupId.le_total a.id b.id
    exact List.pairwise_mergeSort trans total _
  have told := (groups_nodup reached h).imp_of_mem fun hg hk hne =>
    fun same => hne (eq_of_mem_groups_of_apart apart h hg hk same)
  exact sorted.imp₂ (fun _ _ le ne => ⟨le, ne⟩) told

theorem groups_ascending (reached : d.cluster.Reached) (stay : d.cluster.OwnersStay)
    (h : d.groups = .ok gs) : gs.Pairwise fun a b => a.id.Before b.id :=
  groups_ascending_of_apart reached (reached.rootsApart stay) h

/-- There is one list in the order of the identifiers that has just these groups. -/
theorem eq_of_ascending {ks : List NodeGroup} (hg : gs.Pairwise fun a b => a.id.Before b.id)
    (hk : ks.Pairwise fun a b => a.id.Before b.id) (same : ∀ g, g ∈ gs ↔ g ∈ ks) : gs = ks := by
  have once {l : List NodeGroup} (hl : l.Pairwise fun a b => a.id.Before b.id) : l.Nodup :=
    hl.imp fun before same => before.2 (congrArg NodeGroup.id same)
  refine ((List.perm_ext_iff_of_nodup (once hg) (once hk)).mpr same).eq_of_pairwise ?_ hg hk
  exact fun a b _ _ hab hba => absurd hba hab.asymm

end Directory
end NodeGroups
