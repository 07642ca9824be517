import NodeGroups.Proofs.Ancestry

/-!
# One rule for owners

An owner can be looked up from what it owns, over a key that is put together as text and cut apart
again, and an object at hand can be asked whether it is the owner. Where the key can be read, the
two say the same for every text that a reference can hold: what is found owns the object, what
owns it is found, and there is one such object at most. The key cannot be read exactly where a slash
or the lack of a name would have it cut elsewhere.
-/
namespace NodeGroups

namespace ObjectKey

/-- A key that is read from a namespace and a name is made of these two. -/
theorem eq_of_parse_pair {ns name : String} {k : ObjectKey}
    (h : parse (ns ++ "/" ++ name) = .ok k) :
    k = ⟨ns, name⟩ ∧ Text.IsSegment name ∧ '/' ∉ ns.toList := by
  have clear : '/' ∉ ns.toList := ns_eq_of_parse_pair h ▸ (parse_eq_ok_iff.mp h).2.1
  obtain ⟨part, same⟩ := (parse_pair_eq_ok_iff clear).mp h
  exact ⟨same, part, clear⟩

theorem parse_pair_error_iff {ns name : String} : (∃ e, parse (ns ++ "/" ++ name) = .error e) ↔
    name = "" ∨ '/' ∈ name.toList ∨ '/' ∈ ns.toList := by
  constructor
  · rintro ⟨e, failed⟩
    by_contra fine
    simp only [not_or] at fine
    obtain ⟨filled, clear, also⟩ := fine
    cases failed.symm.trans ((parse_pair_eq_ok_iff also).mpr ⟨⟨filled, clear⟩, rfl⟩)
  · intro wrong
    cases parsed : parse (ns ++ "/" ++ name) with
    | error e => exact ⟨e, rfl⟩
    | ok k =>
      obtain ⟨-, part, clear⟩ := eq_of_parse_pair parsed
      rcases wrong with empty | slash | slash
      · exact absurd empty part.1
      · exact absurd slash part.2
      · exact absurd slash clear

end ObjectKey

section
variable {α : Type} [Resource α] {owned : Metadata} {owners : Cache α} {ns : String}
  (hns : owned.ns = some ns) (hne : ns ≠ "")

include hns hne

/-- In any namespace a reference fails exactly when its text makes no key. -/
theorem owner?_error_iff_text : (∃ e, owner? owned owners = .error e) ↔
    ∃ reference, owned.ownerOfKind? (Resource.kind α) = some reference ∧
      (reference.name = "" ∨ '/' ∈ reference.name.toList ∨ '/' ∈ ns.toList) := by
  simp only [owner?_error_iff_unread, Metadata.UnreadOwner, ownerKeyText_eq hns hne,
    ObjectKey.parse_pair_error_iff]

/-- Where the reference can be followed, the object that is found is the one that owns. -/
theorem owner?_iff_owns (keyed : owners.Keyed) (direct : owners.Direct)
    (followed : ∀ e, owner? owned owners ≠ .error e) {o : α} :
    owner? owned owners = .ok (some o) ↔ o ∈ owners.objects ∧ owns o owned = true := by
  cases first : owned.ownerOfKind? (Resource.kind α) with
  | none => simp [owner?, owns, first]
  | some reference =>
    have readable : ¬ (reference.name = "" ∨ '/' ∈ reference.name.toList ∨ '/' ∈ ns.toList) := by
      intro wrong
      have refused : ∃ e, owner? owned owners = .error e :=
        (owner?_error_iff_text hns hne).mpr ⟨reference, first, wrong⟩
      obtain ⟨e, failed⟩ := refused
      exact followed e failed
    simp only [not_or] at readable
    obtain ⟨filled, clear, also⟩ := readable
    rw [owner?_eq_some_iff keyed direct hns ⟨hne, also⟩]
    refine and_congr_right fun _ => ⟨And.left, fun own => ⟨own, ?_⟩⟩
    obtain ⟨found, again, same, named, -⟩ := owns_iff.mp own
    cases first.symm.trans again
    exact ⟨⟨ns, same.symm.trans hns, hne, also⟩, ⟨_, named, filled, clear⟩⟩

theorem owner?_none_iff_owns (keyed : owners.Keyed) (direct : owners.Direct)
    (followed : ∀ e, owner? owned owners ≠ .error e) :
    owner? owned owners = .ok none ↔ ∀ o ∈ owners.objects, owns o owned = false := by
  have found {o : α} : owner? owned owners = .ok (some o) ↔ _ :=
    owner?_iff_owns hns hne keyed direct followed
  constructor
  · intro h o ho
    rw [Bool.eq_false_iff]
    intro own
    cases h.symm.trans (found.mpr ⟨ho, own⟩)
  · intro free
    cases result : owner? owned owners with
    | error e => exact absurd result (followed e)
    | ok owner =>
      cases owner with
      | none => rfl
      | some o =>
        obtain ⟨ho, own⟩ := found.mp result
        rw [free o ho] at own
        cases own

end

/-- Of what is owned only the namespace and the first reference of the kind count. -/
theorem owner?_of_reference_eq {α : Type} [Resource α] {owned other : Metadata}
    (ns : other.ns = owned.ns)
    (first : other.ownerOfKind? (Resource.kind α) = owned.ownerOfKind? (Resource.kind α))
    (owners : Cache α) : owner? other owners = owner? owned owners := by
  rw [owner?, owner?, first]
  simp only [ownerKeyText, ns]

theorem owns_of_reference_eq {α : Type} [Resource α] {owned other : Metadata}
    (ns : other.ns = owned.ns)
    (first : other.ownerOfKind? (Resource.kind α) = owned.ownerOfKind? (Resource.kind α))
    (o : α) : owns o other = owns o owned := by
  rw [owns, owns, first, ns]

/-- Looking up the owner and asking a cached object whether it is the owner are one rule. -/
theorem owner_lookup_agrees_with_owns {α : Type} [Resource α] (owned : Metadata) (owners : Cache α)
    (reached : owners.Reached) (memory : owners.keying = .folding) (ns : String)
    (hns : owned.ns = some ns) (hne : ns ≠ "") :
    ((∃ e, owner? owned owners = .error e) ↔
      ∃ reference, owned.ownerOfKind? (Resource.kind α) = some reference ∧
        (reference.name = "" ∨ '/' ∈ reference.name.toList ∨ '/' ∈ ns.toList)) ∧
    ((∀ e, owner? owned owners ≠ .error e) →
      (∀ o, owner? owned owners = .ok (some o) ↔ o ∈ owners.objects ∧ owns o owned = true) ∧
      (owner? owned owners = .ok none ↔ ∀ o ∈ owners.objects, owns o owned = false)) ∧
    (∀ a ∈ owners.objects, ∀ b ∈ owners.objects,
      owns a owned = true → owns b owned = true → a = b) ∧
    (∀ o, owner? owned owners = .ok (some o) ∨ owns o owned = true →
      ∃ reference, owned.ownerOfKind? (Resource.kind α) = some reference ∧
        (Resource.metadata o).ns = some ns ∧
        (Resource.metadata o).name = some reference.name ∧
        (Resource.metadata o).uid = some reference.uid) ∧
    ∀ other : Metadata, other.ns = owned.ns →
      other.ownerOfKind? (Resource.kind α) = owned.ownerOfKind? (Resource.kind α) →
      owner? other owners = owner? owned owners ∧ ∀ o : α, owns o other = owns o owned := by
  have keyed := reached.keyed
  have direct : owners.Direct := Or.inl memory
  refine ⟨owner?_error_iff_text hns hne, fun followed =>
    ⟨fun o => owner?_iff_owns hns hne keyed direct followed,
      owner?_none_iff_owns hns hne keyed direct followed⟩,
    fun a ha b hb => eq_of_owns keyed ha hb, ?_, fun other same first =>
      ⟨owner?_of_reference_eq same first owners, owns_of_reference_eq same first⟩⟩
  intro o matched
  have own : owns o owned = true := by
    rcases matched with found | own
    · have followed : ∀ e, owner? owned owners ≠ .error e := fun e failed => by
        cases found.symm.trans failed
      exact ((owner?_iff_owns hns hne keyed direct followed).mp found).2
    · exact own
  obtain ⟨reference, first, same, named, uid⟩ := owns_iff.mp own
  exact ⟨reference, first, same.symm.trans hns, named, uid⟩

namespace Lab

/-- The set `part` made again under its name. -/
def remadePart : MachineSet := { part with metadata := { part.metadata with uid := some "u9" } }

def remadeSets : Cache MachineSet := ⟨.folding, [remadePart, solo]⟩

/-- The Machine of `part`, with a second reference that names `solo`. -/
def claimedTwice : Metadata :=
  metadata "part-a" "u5" [owner "MachineSet" "part" "u2", owner "MachineSet" "solo" "u1"] []

/-- The first reference leads to `part`, and to nothing once that is made again. -/
theorem part_owns_by_uid : directory.cluster.machineSets.Reached ∧
    directory.cluster.machineSets.keying = .folding ∧ remadeSets.Reached ∧
    remadeSets.keying = .folding ∧ claimedTwice.ns = some "lab" ∧ "lab" ≠ "" ∧
    owner? claimedTwice directory.cluster.machineSets = .ok (some part) ∧
    owner? partMachine.metadata directory.cluster.machineSets = .ok (some part) ∧
    owns part claimedTwice = true ∧ owner? claimedTwice remadeSets = .ok none := by
  have remade : remadeSets.Reached := Cache.Keyed.reached (by decide)
  obtain ⟨fails, agree, -, -, alike⟩ := owner_lookup_agrees_with_owns claimedTwice
    directory.cluster.machineSets reached.machineSets rfl "lab" rfl (by decide)
  obtain ⟨failsToo, agreeToo, -⟩ := owner_lookup_agrees_with_owns claimedTwice remadeSets remade rfl
    "lab" rfl (by decide)
  have plain : ¬ ∃ reference,
      claimedTwice.ownerOfKind? (Resource.kind MachineSet) = some reference ∧
        (reference.name = "" ∨ '/' ∈ reference.name.toList ∨ '/' ∈ "lab".toList) := by
    rintro ⟨reference, first, wrong⟩
    have known : claimedTwice.ownerOfKind? (Resource.kind MachineSet) =
        some (owner "MachineSet" "part" "u2") := rfl
    cases known.symm.trans first
    exact absurd wrong (by decide)
  have found : owner? claimedTwice directory.cluster.machineSets = .ok (some part) :=
    ((agree fun e failed => plain (fails.mp ⟨e, failed⟩)).1 part).mpr ⟨by decide, by decide⟩
  have gone : owner? claimedTwice remadeSets = .ok none :=
    (agreeToo fun e failed => plain (failsToo.mp ⟨e, failed⟩)).2.mpr (by decide)
  have same : owner? partMachine.metadata directory.cluster.machineSets =
      owner? claimedTwice directory.cluster.machineSets := (alike partMachine.metadata rfl rfl).1
  exact ⟨reached.machineSets, rfl, remade, rfl, rfl, by decide, found, same.trans found,
    by decide, gone⟩

end Lab
end NodeGroups
