import NodeGroups.Directory
import NodeGroups.Proofs.Keys

/-!
# Following an owner reference

The owner that a reference leads to is a cached object that owns the object at hand, and the
other way round (`owner?_eq_some_iff`): the key that is put together from a namespace and the
referenced name is cut apart again at the same place. A reference whose name is no segment is
the only one that cannot be followed. Two such steps lead from a Machine to its root.
-/
namespace NodeGroups

section
variable {α : Type} [Resource α]

theorem owns_iff {owner : α} {owned : Metadata} : owns owner owned = true ↔
    ∃ reference, owned.ownerOfKind? (Resource.kind α) = some reference ∧
      owned.ns = (Resource.metadata owner).ns ∧
      (Resource.metadata owner).name = some reference.name ∧
      (Resource.metadata owner).uid = some reference.uid := by
  rw [owns]
  cases owned.ownerOfKind? (Resource.kind α) with
  | none => simp
  | some reference => simp [and_assoc]

/-- Of the objects in one cache at most one owns what is at hand. -/
theorem eq_of_owns {owners : Cache α} (keyed : owners.Keyed) {owned : Metadata} {a b : α}
    (ha : a ∈ owners.objects) (hb : b ∈ owners.objects) (owna : owns a owned = true)
    (ownb : owns b owned = true) : a = b := by
  obtain ⟨first, hf, nsa, namea, -⟩ := owns_iff.mp owna
  obtain ⟨second, hs, nsb, nameb, -⟩ := owns_iff.mp ownb
  cases hf.symm.trans hs
  exact List.inj_on_of_nodup_map keyed.distinct ha hb
    (Cache.keyOf_of_name (nsa.symm.trans nsb) (namea.trans nameb.symm))

/-- Whatever owns the object at hand has the uid that its reference names. -/
theorem uid_eq_of_owns {owned : Metadata} {a b : α} (owna : owns a owned = true)
    (ownb : owns b owned = true) : (Resource.metadata a).uid = (Resource.metadata b).uid := by
  obtain ⟨first, hf, -, -, uida⟩ := owns_iff.mp owna
  obtain ⟨second, hs, -, -, uidb⟩ := owns_iff.mp ownb
  cases hf.symm.trans hs
  exact uida.trans uidb.symm

/-- Of an owner only the namespace, the name and the uid count. -/
theorem owns_congr {a b : α} (ns : (Resource.metadata a).ns = (Resource.metadata b).ns)
    (name : (Resource.metadata a).name = (Resource.metadata b).name)
    (uid : (Resource.metadata a).uid = (Resource.metadata b).uid) : owns a = owns b := by
  funext owned
  rw [owns, owns, ns, name, uid]

theorem ownerKeyText_eq {owned : Metadata} {ns : String} (hns : owned.ns = some ns)
    (hne : ns ≠ "") (reference : OwnerReference) :
    ownerKeyText owned reference = ns ++ "/" ++ reference.name := by
  have there : filled owned.ns = some ns := filled_eq_some_iff.mpr ⟨hns, hne⟩
  rw [ownerKeyText, there]

/-- Only a reference that makes no key is an error, and it is about that key. -/
theorem owner?_eq_error {owned : Metadata} {owners : Cache α} {e : Error}
    (h : owner? owned owners = .error e) :
    ∃ reference, owned.ownerOfKind? (Resource.kind α) = some reference ∧
      ObjectKey.parse (ownerKeyText owned reference) = .error e := by
  rw [owner?] at h
  split at h
  · cases h
  · next reference first =>
    split at h
    · next failed =>
      cases h
      exact ⟨reference, first, failed⟩
    · split at h
      · cases h
      · split at h <;> cases h

/-- The first reference to an owner of the kind makes no key. -/
def Metadata.UnreadOwner (owned : Metadata) (kind : String) : Prop :=
  ∃ reference, owned.ownerOfKind? kind = some reference ∧
    ∃ e, ObjectKey.parse (ownerKeyText owned reference) = .error e

theorem owner?_error_iff_unread {owned : Metadata} {owners : Cache α} :
    (∃ e, owner? owned owners = .error e) ↔ owned.UnreadOwner (Resource.kind α) := by
  constructor
  · rintro ⟨e, failed⟩
    obtain ⟨reference, first, unread⟩ := owner?_eq_error failed
    exact ⟨reference, first, e, unread⟩
  · rintro ⟨reference, first, e, unread⟩
    refine ⟨e, ?_⟩
    rw [owner?, first]
    simp only [unread]

/-- An owner is found under the key of its reference, and has the uid of it. -/
theorem owner?_found_iff {owned : Metadata} {owners : Cache α} {o : α} :
    owner? owned owners = .ok (some o) ↔
      ∃ reference key, owned.ownerOfKind? (Resource.kind α) = some reference ∧
        ObjectKey.parse (ownerKeyText owned reference) = .ok key ∧
        owners.get? key.ns? key.name = some o ∧
        (Resource.metadata o).uid = some reference.uid := by
  constructor
  · intro h
    rw [owner?] at h
    split at h
    · cases h
    · next reference first =>
      split at h
      · cases h
      · next key read =>
        split at h
        · cases h
        · next candidate found =>
          split at h
          · next uid =>
            cases h
            exact ⟨reference, key, first, read, found, uid⟩
          · cases h
  · rintro ⟨reference, key, first, read, found, uid⟩
    rw [owner?, first]
    simp only [read, found, if_pos uid]

theorem invalidKey_of_owner? {owned : Metadata} {owners : Cache α} {e : Error}
    (h : owner? owned owners = .error e) : ∃ key message, e = .invalidKey key message := by
  obtain ⟨reference, -, unread⟩ := owner?_eq_error h
  obtain ⟨fault, rfl⟩ := ObjectKey.parse_error unread
  exact ⟨_, _, rfl⟩

variable {owned : Metadata} {owners : Cache α} {ns : String}

/-- In a namespace that is a segment, a reference fails exactly when its name is none. -/
theorem owner?_error_iff (hns : owned.ns = some ns) (segment : Text.IsSegment ns) :
    (∃ e, owner? owned owners = .error e) ↔
      ∃ reference, owned.ownerOfKind? (Resource.kind α) = some reference ∧
        ¬ Text.IsSegment reference.name := by
  rw [owner?_error_iff_unread]
  constructor
  · rintro ⟨reference, first, e, failed⟩
    refine ⟨reference, first, fun part => ?_⟩
    rw [ownerKeyText_eq hns segment.1,
      (ObjectKey.parse_pair_eq_ok_iff segment.2).mpr ⟨part, rfl⟩] at failed
    cases failed
  · rintro ⟨reference, first, broken⟩
    refine ⟨reference, first, ?_⟩
    rw [ownerKeyText_eq hns segment.1]
    cases hp : ObjectKey.parse (ns ++ "/" ++ reference.name) with
    | ok key => exact absurd ((ObjectKey.parse_pair_eq_ok_iff segment.2).mp hp).1 broken
    | error e => exact ⟨e, rfl⟩

/-- A reference that can be followed leads to the object of its name, if that has its uid. -/
theorem owner?_of_reference (hns : owned.ns = some ns) (segment : Text.IsSegment ns)
    {reference : OwnerReference} (first : owned.ownerOfKind? (Resource.kind α) = some reference)
    (part : Text.IsSegment reference.name) :
    owner? owned owners = .ok ((owners.get? (some ns) reference.name).filter fun o =>
      (Resource.metadata o).uid = some reference.uid) := by
  rw [owner?, first]
  simp only [ownerKeyText_eq hns segment.1,
    (ObjectKey.parse_pair_eq_ok_iff segment.2).mpr ⟨part, rfl⟩, ObjectKey.ns?,
    if_neg segment.1]
  cases owners.get? (some ns) reference.name with
  | none => rfl
  | some o =>
    by_cases uid : (Resource.metadata o).uid = some reference.uid <;>
      simp [Option.filter, uid]

theorem owner?_eq_some_iff (keyed : owners.Keyed) (direct : owners.Direct)
    (hns : owned.ns = some ns) (segment : Text.IsSegment ns) {o : α} :
    owner? owned owners = .ok (some o) ↔
      o ∈ owners.objects ∧ owns o owned = true ∧ (Resource.metadata o).Placed := by
  have found {name : String} (part : Text.IsSegment name) : owners.get? (some ns) name = some o ↔
      o ∈ owners.objects ∧ (Resource.metadata o).key = .ok ⟨ns, name⟩ :=
    keyed.get?_eq_some_iff direct part.1
  constructor
  · intro h
    cases first : owned.ownerOfKind? (Resource.kind α) with
    | none => simp [owner?, first] at h
    | some reference =>
      by_cases part : Text.IsSegment reference.name
      · rw [owner?_of_reference hns segment first part] at h
        obtain ⟨look, uid⟩ := Option.filter_eq_some_iff.mp (Except.ok.inj h)
        obtain ⟨ho, hkey⟩ := (found part).mp look
        obtain ⟨hons, honame, -⟩ := Metadata.key_eq_ok_iff.mp hkey
        have same := eq_some_of_getD hons segment.1
        have own : owns o owned = true :=
          owns_iff.mpr ⟨reference, first, hns.trans same.symm, honame, of_decide_eq_true uid⟩
        exact ⟨ho, own, ⟨ns, same, segment⟩, ⟨_, honame, part⟩⟩
      · obtain ⟨e, failed⟩ := (owner?_error_iff hns segment).mpr ⟨reference, first, part⟩
        cases failed.symm.trans h
  · rintro ⟨ho, own, placed⟩
    obtain ⟨reference, first, hons, honame, uid⟩ := owns_iff.mp own
    obtain ⟨name, hname, part⟩ := placed.name
    cases honame.symm.trans hname
    have hkey : (Resource.metadata o).key = .ok ⟨ns, reference.name⟩ :=
      Metadata.key_eq_ok_iff.mpr ⟨by rw [← hons, hns]; rfl, honame, part.1⟩
    rw [owner?_of_reference hns segment first part, (found part).mpr ⟨ho, hkey⟩]
    simp [uid]

end

namespace Cluster

@[simp]
theorem rootOf_eq_error {c : Cluster} {ms : MachineSet} {e : Error} :
    c.rootOf ms = .error e ↔ c.machineSetOwner? ms = .error e := by
  rw [rootOf]
  cases c.machineSetOwner? ms with
  | error other => simp
  | ok owner => cases owner <;> simp

theorem rootOf_eq_machineSet {c : Cluster} {ms other : MachineSet} :
    c.rootOf ms = .ok (.machineSet other) ↔
      other = ms ∧ c.machineSetOwner? ms = .ok none := by
  rw [rootOf]
  cases c.machineSetOwner? ms with
  | error e => simp
  | ok owner => cases owner <;> simp [eq_comm]

@[simp]
theorem rootOf_eq_machineDeployment {c : Cluster} {ms : MachineSet} {md : MachineDeployment} :
    c.rootOf ms = .ok (.machineDeployment md) ↔ c.machineSetOwner? ms = .ok (some md) := by
  rw [rootOf]
  cases c.machineSetOwner? ms with
  | error e => simp
  | ok owner => cases owner <;> simp

section
variable {c : Cluster}

theorem machineOwner?_eq_some_iff (reached : c.Reached) (placed : c.Placed) {m : Machine}
    (hm : m ∈ c.machines.objects) {ms : MachineSet} :
    c.machineOwner? m = .ok (some ms) ↔
      ms ∈ c.machineSets.objects ∧ owns ms m.metadata = true := by
  obtain ⟨ns, hns, segment⟩ := (placed.machines m hm).ns
  rw [machineOwner?, owner?_eq_some_iff reached.machineSets.keyed
    placed.direct.machineSets hns segment]
  exact ⟨fun h => ⟨h.1, h.2.1⟩, fun h => ⟨h.1, h.2, placed.machineSets ms h.1⟩⟩

theorem machineSetOwner?_eq_some_iff (reached : c.Reached) (placed : c.Placed)
    {ms : MachineSet} (hms : ms ∈ c.machineSets.objects) {md : MachineDeployment} :
    c.machineSetOwner? ms = .ok (some md) ↔
      md ∈ c.machineDeployments.objects ∧ owns md ms.metadata = true := by
  obtain ⟨ns, hns, segment⟩ := (placed.machineSets ms hms).ns
  rw [machineSetOwner?, owner?_eq_some_iff reached.machineDeployments.keyed
    placed.direct.machineDeployments hns segment]
  exact ⟨fun h => ⟨h.1, h.2.1⟩, fun h => ⟨h.1, h.2, placed.machineDeployments md h.1⟩⟩

end

end Cluster
end NodeGroups
