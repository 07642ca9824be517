import NodeGroups.Proofs.Enumeration

/-!
# A look at one identifier

A look under an identifier says of the one object that is cached there what the listing says of
it. The two agree on every identifier of caches that were filled by hand, where an absent
namespace and an empty one are the same place.
-/
namespace NodeGroups

/-- An object of the cache is in the namespace, absent or empty alike, and has the name. -/
def Cache.Has {α : Type} [Resource α] (c : Cache α) (ns name : String) : Prop :=
  ∃ a ∈ c.objects, (Resource.metadata a).ns.getD "" = ns ∧ (Resource.metadata a).name = some name

/-- An object of the kind is cached under the namespace and the name of the identifier. -/
def Cluster.Has (c : Cluster) (id : GroupId) : Prop :=
  match id.kind with
  | .machineSet => c.machineSets.Has id.ns id.name
  | .machineDeployment => c.machineDeployments.Has id.ns id.name

theorem Cluster.IsRoot.exists_id {c : Cluster} (reached : c.Reached) (memory : c.InMemory)
    {r : Root} (h : c.IsRoot r) : ∃ id, r.id = .ok id := by
  have keyed : ∃ key, r.metadata.key = .ok key := by
    cases r with
    | machineSet ms => exact reached.machineSets.keyed.exists_key memory.machineSets h.1
    | machineDeployment md =>
      exact reached.machineDeployments.keyed.exists_key memory.machineDeployments h
  obtain ⟨key, hkey⟩ := keyed
  exact ⟨⟨r.kind, key.ns, key.name⟩, Root.id_eq_ok_iff.mpr ⟨rfl, hkey⟩⟩

theorem Cache.Keyed.has_iff {α : Type} [Resource α] {c : Cache α} (h : c.Keyed)
    (hc : c.keying = .folding) {ns name : String} : c.Has ns name ↔
      ∃ a ∈ c.objects, (Resource.metadata a).key = .ok ⟨ns, name⟩ := by
  simp only [Metadata.key_eq_ok_iff]
  constructor
  · rintro ⟨a, ha, hns, hname⟩
    obtain ⟨key, hkey⟩ := h.exists_key hc ha
    obtain ⟨-, hown, hne⟩ := Metadata.key_eq_ok_iff.mp hkey
    cases hname.symm.trans hown
    exact ⟨a, ha, hns, hname, hne⟩
  · rintro ⟨a, ha, hns, hname, -⟩
    exact ⟨a, ha, hns, hname⟩

namespace Settings

theorem inScope_iff {s : Settings} {ns : String} :
    s.inScope ns = true ↔ ∀ scope, s.ns = some scope → scope = ns := by
  rw [inScope]
  cases s.ns with
  | none => simp
  | some scope => simp

/-- A scope that is not empty covers the objects whose identifiers are in it. -/
theorem covers_iff_inScope {s : Settings} (valid : s.validate = .ok ()) {m : Metadata}
    {ns : String} (h : m.ns.getD "" = ns) : s.Covers m ↔ s.inScope ns = true := by
  rw [inScope_iff, Covers]
  refine forall_congr' fun scope => imp_congr_right fun hs => ?_
  have filled := (scope_isSegment valid hs).1
  constructor
  · intro hm
    rw [← h, hm]
    rfl
  · rintro rfl
    exact eq_some_of_getD h filled

/-- What is in scope and cached under a key is what a listing within the scope has there. -/
theorem seen_iff {s : Settings} (valid : s.validate = .ok ()) {α : Type} [Resource α]
    {c : Cache α} (h : c.Keyed) (hc : c.keying = .folding) {ns name : String} :
    s.inScope ns = true ∧ c.Has ns name ↔
      ∃ a ∈ c.within s.ns, (Resource.metadata a).key = .ok ⟨ns, name⟩ := by
  simp only [h.has_iff hc, mem_within_scope]
  constructor
  · rintro ⟨visible, a, ha, key⟩
    have covered := (covers_iff_inScope valid (Metadata.key_eq_ok_iff.mp key).1).mpr visible
    exact ⟨a, ⟨ha, covered⟩, key⟩
  · rintro ⟨a, ⟨ha, covered⟩, key⟩
    have visible := (covers_iff_inScope valid (Metadata.key_eq_ok_iff.mp key).1).mp covered
    exact ⟨visible, a, ha, key⟩

end Settings

namespace Directory

@[simp]
theorem lookupRoot_eq_error {r : Root} {e : Error} :
    lookupRoot r = .error e ↔ r.group? = .error e := by
  rw [lookupRoot]
  cases r.group? with
  | error other => simp [Except.map]
  | ok found => cases found <;> simp [Except.map]

@[simp]
theorem lookupRoot_eq_scalable {r : Root} {g : NodeGroup} :
    lookupRoot r = .ok (.scalable g) ↔ r.group? = .ok (some g) := by
  rw [lookupRoot]
  cases r.group? with
  | error e => simp [Except.map]
  | ok found => cases found <;> simp [Except.map]

theorem lookupRoot_ne_notFound {r : Root} : lookupRoot r ≠ .ok .notFound := by
  rw [lookupRoot]
  cases r.group? with
  | error e => simp [Except.map]
  | ok found => cases found <;> simp [Except.map]

/-- The identifier is in scope and there is something under it. -/
def Seen (d : Directory) (id : GroupId) : Prop :=
  d.settings.inScope id.ns = true ∧ d.cluster.Has id

section
variable {d : Directory} (reached : d.cluster.Reached) (memory : d.cluster.InMemory)
  (valid : d.settings.validate = .ok ())

include reached memory in
theorem lookup_of_unseen {id : GroupId} (h : ¬ d.Seen id) : d.lookup id = .ok .notFound := by
  by_cases visible : d.settings.inScope id.ns = true
  · have absent : ¬ d.cluster.Has id := fun has => h ⟨visible, has⟩
    rw [lookup, if_pos visible]
    rw [Cluster.Has] at absent
    cases hk : id.kind with
    | machineSet =>
      rw [hk] at absent
      cases found : d.cluster.machineSets.get? (some id.ns) id.name with
      | none => rfl
      | some ms =>
        have keyed := reached.machineSets.keyed
        exact absurd ((keyed.has_iff memory.machineSets).mpr
          ⟨ms, (keyed.get?_folding memory.machineSets).mp found⟩) absent
    | machineDeployment =>
      rw [hk] at absent
      cases found : d.cluster.machineDeployments.get? (some id.ns) id.name with
      | none => rfl
      | some md =>
        have keyed := reached.machineDeployments.keyed
        exact absurd ((keyed.has_iff memory.machineDeployments).mpr
          ⟨md, (keyed.get?_folding memory.machineDeployments).mp found⟩) absent
  · rw [lookup, if_neg visible]

include reached memory valid in
/-- A MachineSet in scope is found under its identifier. -/
theorem lookup_of_set {ms : MachineSet} (hms : ms ∈ d.scopedSets) {id : GroupId}
    (hid : (Root.machineSet ms).id = .ok id) : d.Seen id ∧ d.lookup id =
      match d.cluster.rootOf ms with
      | .error e => .error e
      | .ok (.machineDeployment _) => .ok .notScalable
      | .ok (.machineSet own) => lookupRoot (.machineSet own) := by
  obtain ⟨kind, key⟩ := Root.id_eq_ok_iff.mp hid
  have keyed := reached.machineSets.keyed
  obtain ⟨visible, has⟩ := (Settings.seen_iff valid keyed memory.machineSets).mpr ⟨ms, hms, key⟩
  have found : d.cluster.machineSets.get? (some id.ns) id.name = some ms :=
    (keyed.get?_folding memory.machineSets).mpr ⟨(Settings.mem_within_scope.mp hms).1, key⟩
  refine ⟨⟨visible, ?_⟩, ?_⟩
  · rw [Cluster.Has, ← kind]
    exact has
  · rw [lookup, if_pos visible, ← kind]
    cases hr : d.cluster.rootOf ms with
    | error e => simp only [Root.kind, found, hr]
    | ok root => cases root <;> simp only [Root.kind, found, hr]

include reached memory valid in
/-- So is a MachineDeployment. -/
theorem lookup_of_deployment {md : MachineDeployment}
    (hmd : md ∈ d.cluster.machineDeployments.within d.settings.ns) {id : GroupId}
    (hid : (Root.machineDeployment md).id = .ok id) :
    d.Seen id ∧ d.lookup id = lookupRoot (.machineDeployment md) := by
  obtain ⟨kind, key⟩ := Root.id_eq_ok_iff.mp hid
  have keyed := reached.machineDeployments.keyed
  obtain ⟨visible, has⟩ :=
    (Settings.seen_iff valid keyed memory.machineDeployments).mpr ⟨md, hmd, key⟩
  have found : d.cluster.machineDeployments.get? (some id.ns) id.name = some md :=
    (keyed.get?_folding memory.machineDeployments).mpr
      ⟨(Settings.mem_within_scope.mp hmd).1, key⟩
  refine ⟨⟨visible, ?_⟩, ?_⟩
  · rw [Cluster.Has, ← kind]
    exact has
  · rw [lookup, if_pos visible, ← kind]
    simp only [Root.kind, found]

include reached memory valid in
theorem lookup_of_root {r : Root} (hr : r ∈ d.roots) {id : GroupId} (hid : r.id = .ok id) :
    d.Seen id ∧ d.lookup id = lookupRoot r := by
  obtain ⟨root, covered⟩ := mem_roots_iff.mp hr
  cases r with
  | machineSet ms =>
    have look := lookup_of_set reached memory valid
      (Settings.mem_within_scope.mpr ⟨root.1, covered⟩) hid
    rwa [root.2] at look
  | machineDeployment md =>
    exact lookup_of_deployment reached memory valid
      (Settings.mem_within_scope.mpr ⟨root, covered⟩) hid

include memory reached valid in
/-- What can be seen under an identifier is a root or a MachineSet that is none. -/
theorem Seen.object {id : GroupId} (h : d.Seen id) :
    (∃ ms ∈ d.scopedSets, (Root.machineSet ms).id = .ok id ∧ .machineSet ms ∉ d.roots) ∨
      ∃ r ∈ d.roots, r.id = .ok id := by
  obtain ⟨kind, ns, name⟩ := id
  cases kind with
  | machineSet =>
    obtain ⟨ms, hms, key⟩ :=
      (Settings.seen_iff valid reached.machineSets.keyed memory.machineSets).mp h
    have hid : (Root.machineSet ms).id = .ok ⟨.machineSet, ns, name⟩ :=
      Root.id_eq_ok_iff.mpr ⟨rfl, key⟩
    by_cases hr : .machineSet ms ∈ d.roots
    · exact Or.inr ⟨.machineSet ms, hr, hid⟩
    · exact Or.inl ⟨ms, hms, hid, hr⟩
  | machineDeployment =>
    obtain ⟨md, hmd, key⟩ :=
      (Settings.seen_iff valid reached.machineDeployments.keyed memory.machineDeployments).mp h
    exact Or.inr ⟨.machineDeployment md,
      mem_roots_iff.mpr (Settings.mem_within_scope.mp hmd), Root.id_eq_ok_iff.mpr ⟨rfl, key⟩⟩

include reached memory valid in
/-- What a look can come to, with the object in scope that it is about. -/
theorem lookup_cases (id : GroupId) :
    (¬ d.Seen id ∧ d.lookup id = .ok .notFound) ∨
    (d.Seen id ∧
      ((∃ ms ∈ d.scopedSets, ∃ e, d.cluster.rootOf ms = .error e ∧ d.lookup id = .error e) ∨
        ((∀ r ∈ d.roots, r.id ≠ .ok id) ∧ d.lookup id = .ok .notScalable) ∨
        ∃ r ∈ d.roots, r.id = .ok id ∧ d.lookup id = lookupRoot r)) := by
  by_cases seen : d.Seen id
  · refine Or.inr ⟨seen, ?_⟩
    rcases seen.object reached memory valid with ⟨ms, hms, hid, other⟩ | ⟨r, hr, hid⟩
    · have look := (lookup_of_set reached memory valid hms hid).2
      obtain ⟨cached, covered⟩ := Settings.mem_within_scope.mp hms
      cases hr : d.cluster.rootOf ms with
      | error e => exact Or.inl ⟨ms, hms, e, hr, by rw [look, hr]⟩
      | ok root =>
        cases root with
        | machineSet own =>
          obtain ⟨rfl, -⟩ := Cluster.rootOf_eq_machineSet.mp hr
          have root : Root.machineSet own ∈ d.roots :=
            mem_roots_iff.mpr ⟨⟨cached, hr⟩, covered⟩
          exact absurd root other
        | machineDeployment md =>
          -- A root with this identifier would be the MachineSet itself, which is none.
          refine Or.inr (Or.inl ⟨fun r hroot same => other ?_, by rw [look, hr]⟩)
          obtain ⟨kindr, keyr⟩ := Root.id_eq_ok_iff.mp same
          obtain ⟨kind, key⟩ := Root.id_eq_ok_iff.mp hid
          cases r with
          | machineSet found =>
            have cachedr := (mem_roots_iff.mp hroot).1.1
            rwa [reached.machineSets.keyed.eq_of_key memory.direct.machineSets cached cachedr
              key keyr]
          | machineDeployment found => cases kindr.trans kind.symm
    · exact Or.inr (Or.inr ⟨r, hr, hid, (lookup_of_root reached memory valid hr hid).2⟩)
  · exact Or.inl ⟨seen, lookup_of_unseen reached memory seen⟩

include reached memory valid in
/-- The listing fails with the errors that looks fail with. -/
theorem groups_error_iff : (∃ e, d.groups = .error e) ↔ ∃ id e, d.lookup id = .error e := by
  constructor
  · rintro ⟨e, failed⟩
    rcases d.groups_cases with ⟨ms, hms, e, broken, -⟩ | ⟨-, ⟨r, hr, e, wrong, -⟩ | ⟨_, -, went⟩⟩
    · obtain ⟨key, hkey⟩ := reached.machineSets.keyed.exists_key memory.machineSets
        (Settings.mem_within_scope.mp hms).1
      have hid : (Root.machineSet ms).id = .ok ⟨.machineSet, key.ns, key.name⟩ :=
        Root.id_eq_ok_iff.mpr ⟨rfl, hkey⟩
      exact ⟨_, e, by rw [(lookup_of_set reached memory valid hms hid).2, broken]⟩
    · obtain ⟨id, hid⟩ := (mem_roots_iff.mp hr).1.exists_id reached memory
      refine ⟨id, e, ?_⟩
      rw [(lookup_of_root reached memory valid hr hid).2]
      exact lookupRoot_eq_error.mpr wrong
    · cases failed.symm.trans went
  · rintro ⟨id, e, failed⟩
    cases h : d.groups with
    | error other => exact ⟨other, rfl⟩
    | ok gs =>
      -- Where the listing goes well, nothing that a look comes upon can fail.
      obtain ⟨followed, grouped⟩ := exists_groups_iff.mp ⟨gs, h⟩
      rcases lookup_cases reached memory valid id with
        ⟨-, look⟩ | ⟨-, ⟨ms, hms, e, broken, look⟩ | ⟨-, look⟩ | ⟨r, hr, -, look⟩⟩
      · cases failed.symm.trans look
      · obtain ⟨root, went⟩ := followed ms hms
        cases broken.symm.trans went
      · cases failed.symm.trans look
      · have wrong := lookupRoot_eq_error.mp (look.symm.trans failed)
        obtain ⟨group, went⟩ := grouped r hr
        cases wrong.symm.trans went

include reached memory valid in
theorem lookup_scalable_iff {gs : List NodeGroup} (h : d.groups = .ok gs) {id : GroupId}
    {g : NodeGroup} : d.lookup id = .ok (.scalable g) ↔ g ∈ gs ∧ g.id = id := by
  constructor
  · intro scalable
    rcases lookup_cases reached memory valid id with
      ⟨-, look⟩ | ⟨-, ⟨ms, -, e, -, look⟩ | ⟨-, look⟩ | ⟨r, hr, hid, look⟩⟩
    · cases scalable.symm.trans look
    · cases scalable.symm.trans look
    · cases scalable.symm.trans look
    · have grouped := lookupRoot_eq_scalable.mp (look.symm.trans scalable)
      obtain ⟨own, b, hown, -, rfl⟩ := Root.group?_eq_some_iff.mp grouped
      cases hid.symm.trans hown
      obtain ⟨root, covered⟩ := mem_roots_iff.mp hr
      exact ⟨(mem_groups_iff h).mpr ⟨root, covered, grouped⟩, rfl⟩
  · rintro ⟨hg, rfl⟩
    obtain ⟨root, covered, grouped⟩ := (mem_groups_iff h).mp hg
    have hr := mem_roots_iff.mpr ⟨root, covered⟩
    rw [(lookup_of_root reached memory valid hr (id_of_mem_groups h hg)).2]
    exact lookupRoot_eq_scalable.mpr grouped

include reached memory valid in
theorem lookup_notFound_iff {id : GroupId} : d.lookup id = .ok .notFound ↔ ¬ d.Seen id := by
  constructor
  · intro none
    rcases lookup_cases reached memory valid id with
      ⟨unseen, -⟩ | ⟨-, ⟨ms, -, e, -, look⟩ | ⟨-, look⟩ | ⟨r, -, -, look⟩⟩
    · exact unseen
    · cases none.symm.trans look
    · cases none.symm.trans look
    · exact absurd (look.symm.trans none) lookupRoot_ne_notFound
  · exact lookup_of_unseen reached memory

end

/-- The listing and the looks agree on every identifier. -/
theorem lookup_agrees_with_listing (d : Directory) (reached : d.cluster.Reached)
    (memory : d.cluster.InMemory) (valid : d.settings.validate = .ok ()) :
    ((∃ e, d.groups = .error e) ↔ ∃ id e, d.lookup id = .error e) ∧
    ∀ gs, d.groups = .ok gs → ∀ id,
      ((∃ g, d.lookup id = .ok (.scalable g)) ↔ ∃ g ∈ gs, g.id = id) ∧
      (∀ g, d.lookup id = .ok (.scalable g) → ∀ listed ∈ gs, listed.id = id → listed = g) ∧
      ((¬ ∃ g ∈ gs, g.id = id) →
        d.lookup id = .ok .notFound ∨ d.lookup id = .ok .notScalable) ∧
      (d.lookup id = .ok .notFound ↔
        d.settings.inScope id.ns = false ∨ ¬ d.cluster.Has id) := by
  refine ⟨groups_error_iff reached memory valid, fun gs h id => ⟨?_, ?_, ?_, ?_⟩⟩
  · simp only [lookup_scalable_iff reached memory valid h]
  · intro g scalable listed hl same
    have again := (lookup_scalable_iff reached memory valid h).mpr ⟨hl, same⟩
    cases scalable.symm.trans again
    rfl
  · intro unlisted
    cases look : d.lookup id with
    | error e =>
      obtain ⟨e, failed⟩ := (groups_error_iff reached memory valid).mpr ⟨id, e, look⟩
      cases failed.symm.trans h
    | ok found =>
      cases found with
      | notFound => exact Or.inl rfl
      | notScalable => exact Or.inr rfl
      | scalable g =>
        exact absurd ⟨g, (lookup_scalable_iff reached memory valid h).mp look⟩ unlisted
  · rw [lookup_notFound_iff reached memory valid, Seen, not_and_or, Bool.not_eq_true]

end Directory

namespace Lab

theorem inMemory : directory.cluster.InMemory := ⟨rfl, rfl, rfl, rfl⟩

/-- In the small cluster `solo` is found as a group, and `part`, which is there, as none. -/
theorem solo_found_part_not : directory.cluster.Reached ∧ directory.cluster.InMemory ∧
    directory.settings.validate = .ok () ∧
    (∃ g, directory.lookup ⟨.machineSet, "lab", "solo"⟩ = .ok (.scalable g)) ∧
    (directory.lookup ⟨.machineSet, "lab", "part"⟩ = .ok .notFound ∨
      directory.lookup ⟨.machineSet, "lab", "part"⟩ = .ok .notScalable) := by
  have valid : directory.settings.validate = .ok () := rfl
  have agree := (Directory.lookup_agrees_with_listing directory reached inMemory valid).2
    _ groups_eq
  refine ⟨reached, inMemory, valid, ?_, ?_⟩
  · exact (agree ⟨.machineSet, "lab", "solo"⟩).1.mpr ⟨soloGroup, by simp, rfl⟩
  · exact (agree ⟨.machineSet, "lab", "part"⟩).2.2.1 (by decide)

end Lab
end NodeGroups
