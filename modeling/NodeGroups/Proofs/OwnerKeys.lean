import NodeGroups.Proofs.References

/-!
# The key that an owner is looked up under

The key of an owner is put together as text, of the namespace of what it owns and the name that the
reference has, and cut apart again. In a cache that is filled by hand each outcome of the look can
be told from that key. With a namespace the key is cut where it was put together. Without one a
slash in the name cuts it, and then what is found is called otherwise than the reference says.
-/
namespace NodeGroups

/-- There is no reference to an owner of the kind, or the first one makes a key and nothing that is
cached under it has the uid. -/
def Cache.Unresolved {α : Type} [Resource α] (owners : Cache α) (owned : Metadata) : Prop :=
  ∀ reference, owned.ownerOfKind? (Resource.kind α) = some reference →
    ∃ key, ObjectKey.parse (ownerKeyText owned reference) = .ok key ∧
      ∀ o ∈ owners.objects, (Resource.metadata o).key = .ok key →
        (Resource.metadata o).uid ≠ some reference.uid

theorem ownerKeyText_of_nowhere {owned : Metadata} (nowhere : owned.ns.getD "" = "")
    (reference : OwnerReference) : ownerKeyText owned reference = reference.name := by
  have empty : filled owned.ns = filled none := filled_eq_filled_iff.mpr nowhere
  rw [ownerKeyText, empty]
  rfl

/-- A key that a reference makes has the namespace of what is owned and the name of the reference,
unless there is no namespace and the name has a slash that cuts it. -/
theorem key_of_reference {owned : Metadata} {reference : OwnerReference} {key : ObjectKey}
    (read : ObjectKey.parse (ownerKeyText owned reference) = .ok key) :
    (key = ⟨owned.ns.getD "", reference.name⟩ ∧
      (owned.ns.getD "" ≠ "" ∨ '/' ∉ reference.name.toList)) ∨
    (owned.ns.getD "" = "" ∧ reference.name = key.ns ++ "/" ++ key.name ∧
      '/' ∉ key.name.toList) := by
  by_cases nowhere : owned.ns.getD "" = ""
  · rw [ownerKeyText_of_nowhere nowhere] at read
    obtain ⟨part, -, pair | ⟨unplaced, alone⟩⟩ := ObjectKey.parse_eq_ok_iff.mp read
    · exact Or.inr ⟨nowhere, pair, part.2⟩
    · refine Or.inl ⟨?_, Or.inr (alone ▸ part.2)⟩
      rw [nowhere, alone, ← unplaced]
  · have hns : owned.ns = some (owned.ns.getD "") := eq_some_of_getD rfl nowhere
    rw [ownerKeyText_eq hns nowhere] at read
    exact Or.inl ⟨(ObjectKey.eq_of_parse_pair read).1, Or.inl nowhere⟩

section
variable {α : Type} [Resource α] {owned : Metadata} {owners : Cache α} (keyed : owners.Keyed)
  (memory : owners.keying = .folding)

include keyed memory

/-- What is found is cached under the key of the reference and has the uid of it. -/
theorem owner?_some_iff_key {o : α} : owner? owned owners = .ok (some o) ↔
    ∃ reference key, owned.ownerOfKind? (Resource.kind α) = some reference ∧
      ObjectKey.parse (ownerKeyText owned reference) = .ok key ∧
      (o ∈ owners.objects ∧ (Resource.metadata o).key = .ok key) ∧
      (Resource.metadata o).uid = some reference.uid := by
  simp only [owner?_found_iff, keyed.get?_key memory]

theorem owner?_none_iff_unresolved :
    owner? owned owners = .ok none ↔ owners.Unresolved owned := by
  constructor
  · intro absent reference first
    cases read : ObjectKey.parse (ownerKeyText owned reference) with
    | error e =>
      obtain ⟨e, failed⟩ : ∃ e, owner? owned owners = .error e :=
        owner?_error_iff_unread.mpr ⟨reference, first, e, read⟩
      cases absent.symm.trans failed
    | ok key =>
      refine ⟨key, rfl, fun o ho own uid => ?_⟩
      have found : owner? owned owners = .ok (some o) :=
        (owner?_some_iff_key keyed memory).mpr ⟨reference, key, first, read, ⟨ho, own⟩, uid⟩
      cases absent.symm.trans found
  · intro unresolved
    cases result : owner? owned owners with
    | error e =>
      obtain ⟨reference, first, e, unread⟩ := owner?_error_iff_unread.mp ⟨e, result⟩
      obtain ⟨key, read, -⟩ := unresolved reference first
      cases unread.symm.trans read
    | ok owner =>
      cases owner with
      | none => rfl
      | some o =>
        obtain ⟨reference, key, first, read, ⟨ho, own⟩, uid⟩ :=
          (owner?_some_iff_key keyed memory).mp result
        obtain ⟨other, also, none⟩ := unresolved reference first
        cases read.symm.trans also
        exact absurd uid (none o ho own)

end

/-- An owner that is found has the uid of the reference that led to it, and where that is read in a
namespace, or has no slash in its name, the namespace and the name as well. Elsewhere the name was
cut at its slash, and the owner is called by what is behind it. -/
theorem owner_called_as_referenced {α : Type} [Resource α] (owned : Metadata) (owners : Cache α)
    (reached : owners.Reached) (memory : owners.keying = .folding) (o : α)
    (found : owner? owned owners = .ok (some o)) :
    ∃ reference, owned.ownerOfKind? (Resource.kind α) = some reference ∧
      o ∈ owners.objects ∧ (Resource.metadata o).uid = some reference.uid ∧
      ((Resource.metadata o).ns.getD "" = owned.ns.getD "" ∧
          (Resource.metadata o).name = some reference.name ↔
        owned.ns.getD "" ≠ "" ∨ '/' ∉ reference.name.toList) ∧
      (owned.ns.getD "" = "" → '/' ∈ reference.name.toList →
        ∃ ns name, reference.name = ns ++ "/" ++ name ∧
          (Resource.metadata o).ns.getD "" = ns ∧ (Resource.metadata o).name = some name) := by
  obtain ⟨reference, key, first, read, ⟨ho, own⟩, uid⟩ :=
    (owner?_some_iff_key reached.keyed memory).mp found
  obtain ⟨ns, name, -⟩ := Metadata.key_eq_ok_iff.mp own
  have cutting (nowhere : owned.ns.getD "" = "") (slash : '/' ∈ reference.name.toList) :
      ¬ (owned.ns.getD "" ≠ "" ∨ '/' ∉ reference.name.toList) := by
    rintro (placed | unslashed)
    · exact placed nowhere
    · exact unslashed slash
  refine ⟨reference, first, ho, uid, ?_⟩
  rcases key_of_reference read with ⟨rfl, uncut⟩ | ⟨nowhere, cut, clear⟩
  · refine ⟨⟨fun _ => uncut, fun _ => ⟨ns, name⟩⟩, fun nowhere slash => ?_⟩
    exact absurd uncut (cutting nowhere slash)
  · have slash : '/' ∈ reference.name.toList := by
      rw [cut, ObjectKey.toList_pair]
      simp
    refine ⟨⟨fun called => ?_, fun uncut => ?_⟩, fun _ _ => ⟨key.ns, key.name, cut, ns, name⟩⟩
    · have same : key.name = reference.name := Option.some.inj (name.symm.trans called.2)
      exact absurd slash (same ▸ clear)
    · exact absurd uncut (cutting nowhere slash)

namespace Lab

/-- A Machine outside all namespaces whose reference names the set `solo` of the namespace `lab`. -/
def strayMachine : Machine where
  metadata := { metadata "stray" "u7" [owner "MachineSet" "lab/solo" "u1"] [] with ns := none }
  clusterName := "lab"
  declaredProviderId := none
  status := none

/-- The Machine of `part` leads to the set that its reference names. -/
theorem part_called_as_referenced : directory.cluster.machineSets.Reached ∧
    directory.cluster.machineSets.keying = .folding ∧
    owner? partMachine.metadata directory.cluster.machineSets = .ok (some part) ∧
    partMachine.metadata.ns.getD "" ≠ "" ∧
    part.metadata.ns.getD "" = partMachine.metadata.ns.getD "" ∧
    part.metadata.name = some "part" := by
  have found : owner? partMachine.metadata directory.cluster.machineSets = .ok (some part) := rfl
  obtain ⟨reference, first, -, -, called, -⟩ := owner_called_as_referenced partMachine.metadata
    directory.cluster.machineSets reached.machineSets rfl part found
  have placed : partMachine.metadata.ns.getD "" ≠ "" := by decide
  obtain ⟨ns, name⟩ := called.mpr (Or.inl placed)
  cases first
  exact ⟨reached.machineSets, rfl, found, placed, ns, name⟩

/-- The stray Machine leads to a set in a namespace that it is not in and under a name that its
reference does not have, and which does not own it. -/
theorem stray_leads_to_solo : directory.cluster.machineSets.Reached ∧
    directory.cluster.machineSets.keying = .folding ∧
    strayMachine.metadata.ownerOfKind? (Resource.kind MachineSet) =
      some (owner "MachineSet" "lab/solo" "u1") ∧
    owner? strayMachine.metadata directory.cluster.machineSets = .ok (some solo) ∧
    solo.metadata.ns.getD "" ≠ strayMachine.metadata.ns.getD "" ∧
    solo.metadata.name ≠ some "lab/solo" ∧ owns solo strayMachine.metadata = false :=
  ⟨reached.machineSets, rfl, rfl, rfl, by decide, by decide, by decide⟩

end Lab
end NodeGroups
