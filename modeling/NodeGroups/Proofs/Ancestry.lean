import NodeGroups.Proofs.Lookup
import NodeGroups.Proofs.Machines

/-!
# What stands above an object

An owner that is found is cached, and it is in the namespace of what it owns if that is in one
at all. So the root above a Machine is a root of the cluster in the Machine's namespace, and a
scope that has the Machine has the root. Here nothing is asked of the names and namespaces of
the objects: a text that would be cut elsewhere than where it was put together has too many
slashes for a key.
-/
namespace NodeGroups

/-- What is read before the slash that was put there has no slash of its own. -/
theorem ObjectKey.ns_eq_of_parse_pair {ns name : String} {k : ObjectKey}
    (h : parse (ns ++ "/" ++ name) = .ok k) : k.ns = ns := by
  by_cases slash : '/' ∈ ns.toList
  · obtain ⟨first, second, others, hn⟩ := Text.segments_of_mem slash
    obtain ⟨last, more, hm⟩ := List.exists_cons_of_ne_nil (Text.segments_ne_nil name.toList)
    have parts : Text.segments (ns ++ "/" ++ name).toList =
        first :: second :: (others ++ last :: more) := by
      rw [toList_pair, Text.segments_append, hn, hm, List.cons_append, List.cons_append]
    rw [parse, parts] at h
    cases others with
    | nil => cases h
    | cons third rest => cases h
  · obtain ⟨-, rfl⟩ := (parse_pair_eq_ok_iff slash).mp h
    rfl

section
variable {α : Type} [Resource α] {owned : Metadata} {owners : Cache α} {o : α}

theorem mem_of_owner? (h : owner? owned owners = .ok (some o)) : o ∈ owners.objects := by
  obtain ⟨_, _, -, -, found, -⟩ := owner?_found_iff.mp h
  exact Cache.mem_of_get? found

/-- An owner is in the namespace of what it owns. -/
theorem ns_of_owner? (keyed : owners.Keyed) (direct : owners.Direct) {ns : String}
    (hns : owned.ns = some ns) (hne : ns ≠ "") (h : owner? owned owners = .ok (some o)) :
    (Resource.metadata o).ns = some ns := by
  obtain ⟨reference, key, -, parsed, found, -⟩ := owner?_found_iff.mp h
  have filled := ObjectKey.name_ne_of_parse parsed
  rw [ownerKeyText_eq hns hne] at parsed
  have same : key.ns = ns := ObjectKey.ns_eq_of_parse_pair parsed
  have somewhere : key.ns? = some key.ns := if_neg (same ▸ hne)
  rw [somewhere] at found
  obtain ⟨-, own⟩ := (keyed.get?_eq_some_iff direct filled).mp found
  rw [← same]
  exact eq_some_of_getD (Metadata.key_eq_ok_iff.mp own).1 (same ▸ hne)

end

namespace Cluster

/-- The MachineDeployment that owns a MachineSet if that can be told, else the MachineSet. -/
def representative (c : Cluster) (ms : MachineSet) : Root :=
  match c.machineSetOwner? ms with
  | .ok (some md) => .machineDeployment md
  | _ => .machineSet ms

section
variable {c : Cluster} {ms : MachineSet}

/-- There is no root above a MachineSet only where its owner cannot be followed. -/
theorem rootOf_cases (c : Cluster) (ms : MachineSet) : c.rootOf ms = .ok (c.representative ms) ∨
    (∃ e, c.rootOf ms = .error e) ∧ c.representative ms = .machineSet ms := by
  rw [rootOf, representative]
  cases c.machineSetOwner? ms with
  | error e => exact Or.inr ⟨⟨e, rfl⟩, rfl⟩
  | ok owner => cases owner <;> exact Or.inl rfl

/-- A root is above the MachineSets that it represents. -/
theorem IsRoot.rootOf_eq_iff {r : Root} (root : c.IsRoot r) :
    c.rootOf ms = .ok r ↔ c.representative ms = r := by
  rcases c.rootOf_cases ms with found | ⟨⟨e, failed⟩, alone⟩
  · rw [found, Except.ok.injEq]
  · rw [failed, alone]
    simp only [reduceCtorEq, false_iff]
    rintro rfl
    cases failed.symm.trans root.2

theorem representative_cases (c : Cluster) (ms : MachineSet) :
    c.representative ms = .machineSet ms ∨
    ∃ md, c.machineSetOwner? ms = .ok (some md) ∧
      c.representative ms = .machineDeployment md := by
  rw [representative]
  split
  · next md owner => exact Or.inr ⟨md, owner, rfl⟩
  · exact Or.inl rfl

theorem isRoot_of_rootOf (hms : ms ∈ c.machineSets.objects) {r : Root}
    (h : c.rootOf ms = .ok r) : c.IsRoot r := by
  cases r with
  | machineSet own =>
    obtain ⟨rfl, -⟩ := rootOf_eq_machineSet.mp h
    exact ⟨hms, h⟩
  | machineDeployment md => exact mem_of_owner? (rootOf_eq_machineDeployment.mp h)

theorem LeadsTo.isRoot {m : Machine} {r : Root} (up : c.LeadsTo m r) : c.IsRoot r := by
  obtain ⟨ms, owner, above⟩ := up
  exact isRoot_of_rootOf (mem_of_owner? owner) above

section
variable (reached : c.Reached) (stay : c.OwnersStay) {ns : String}

include reached stay in
theorem ns_of_representative (hns : ms.metadata.ns = some ns) (hne : ns ≠ "") :
    (c.representative ms).metadata.ns = some ns := by
  rcases c.representative_cases ms with alone | ⟨md, owner, above⟩
  · rw [alone]
    exact hns
  · rw [above]
    exact ns_of_owner? reached.machineDeployments.keyed stay.machineDeployments hns hne owner

include reached stay in
/-- The root above a Machine is in the namespace of the Machine. -/
theorem LeadsTo.ns_eq {m : Machine} {r : Root} (up : c.LeadsTo m r)
    (hns : m.metadata.ns = some ns) (hne : ns ≠ "") : r.metadata.ns = some ns := by
  obtain ⟨ms, owner, above⟩ := up
  have between : ms.metadata.ns = some ns :=
    ns_of_owner? reached.machineSets.keyed stay.machineSets hns hne owner
  rcases c.rootOf_cases ms with found | ⟨⟨e, failed⟩, -⟩
  · cases above.symm.trans found
    exact ns_of_representative reached stay between hne
  · cases above.symm.trans failed

end

end

end Cluster
end NodeGroups
