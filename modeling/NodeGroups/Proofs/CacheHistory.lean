import Mathlib.Data.List.Induction
import NodeGroups.Proofs.Changes
import NodeGroups.Proofs.Enumeration
import NodeGroups.Proofs.Keys
import NodeGroups.Proofs.Ledgers

/-!
# What a history leaves in a cache

A cache that is filled by hand is a map from keys to objects. A change decides what is found under
the one key that it is about (`Cache.Keyed.get?_changed`), so that after any history there is under
each key the object that was applied there last and has not been deleted since, and nothing else is
listed (`Cache.filledBy_holds`). Of the requirements of a selector the last one for each label
counts.
-/
namespace NodeGroups

namespace ObjectKey

/-- Where a cache that is filled by hand has what is under the key. -/
def place (key : ObjectKey) : Option String × String := (filled (some key.ns), key.name)

theorem place_eq (ns : Option String) (name : String) :
    place ⟨ns.getD "", name⟩ = (filled ns, name) := by
  have same : filled (some (ns.getD "")) = filled ns := filled_eq_filled_iff.mpr rfl
  rw [place, same]

theorem place_inj {k l : ObjectKey} : k.place = l.place ↔ k = l := by
  constructor
  · intro same
    obtain ⟨ns, name⟩ := Prod.mk.inj same
    obtain ⟨kns, kname⟩ := k
    obtain ⟨lns, lname⟩ := l
    cases filled_eq_filled_iff.mp ns
    cases name
    rfl
  · intro same
    rw [same]

end ObjectKey

/-- The last element of a list that satisfies the condition. -/
def lastWith {β : Type} (p : β → Bool) (l : List β) : Option β := (l.filter p).getLast?

theorem lastWith_append {β : Type} (p : β → Bool) (l : List β) (b : β) :
    lastWith p (l ++ [b]) = if p b then some b else lastWith p l := by
  by_cases hb : p b = true
  · simp [lastWith, hb]
  · simp [lastWith, hb]

namespace Selector

/-- What a selector requires for a label is what was required last. -/
theorem mem_required_iff {requirements : StringMap} {entry : String × String} :
    entry ∈ (ofList requirements).required ↔
      lastWith (fun other => other.1 = entry.1) requirements = some entry := by
  induction requirements using List.reverseRecOn with
  | nil => simp [ofList, everything, lastWith]
  | append_singleton requirements added ih =>
    obtain ⟨label, value⟩ := added
    have step : ofList (requirements ++ [(label, value)]) =
        (ofList requirements).require label value := List.foldl_append
    rw [step, require, List.mem_cons, List.mem_filter, ih, lastWith_append]
    by_cases same : label = entry.1
    · simp [same, eq_comm]
    · have other : entry ≠ (label, value) := fun h => same (congrArg Prod.fst h.symm)
      simp [same, other, Ne.symm same]

theorem selects_ofList_iff {requirements labels : StringMap} :
    (ofList requirements).selects labels = true ↔ ∀ label value,
      lastWith (fun entry => entry.1 = label) requirements = some (label, value) →
        labels.lookup label = some value := by
  rw [selects, List.all_eq_true]
  constructor
  · intro all label value last
    simpa using all (label, value) (mem_required_iff.mpr last)
  · intro all entry required
    simpa using all entry.1 entry.2 (mem_required_iff.mp required)

end Selector

section
variable {α : Type} [Resource α]

namespace Change

/-- The key that a change is about. An object that is refused has none. -/
def key? : Change α → Option ObjectKey
  | .apply a => (Resource.metadata a).key.toOption
  | .delete ns name => some ⟨ns.getD "", name⟩

/-- What a change leaves under its key. -/
def object? : Change α → Option α
  | .apply a => some a
  | .delete _ _ => none

end Change

/-- The last change about a key. -/
def lastAbout (history : List (Change α)) (key : ObjectKey) : Option (Change α) :=
  lastWith (fun change => change.key? = some key) history

/-- What a history has left under some key. -/
def Live (history : List (Change α)) (a : α) : Prop :=
  ∃ key, lastAbout history key = some (.apply a)

namespace Cache

variable {c : Cache α}

section
variable (memory : c.keying = .folding)

include memory

theorem keyOf_eq_place (a : α) :
    c.keyOf a = (Resource.metadata a).key.toOption.map ObjectKey.place := by
  cases own : (Resource.metadata a).key with
  | ok key =>
    have there : (Resource.metadata a).key = .ok ⟨(some key.ns).getD "", key.name⟩ := own
    exact (keyOf_folding memory).mpr there
  | error e =>
    cases keyed : c.keyOf a with
    | none => rfl
    | some key =>
      obtain ⟨ns, name⟩ := key
      obtain ⟨place, -⟩ := keyOf_eq_some keyed
      rw [memory] at place
      subst place
      cases own.symm.trans ((keyOf_folding memory).mp keyed)

theorem get?_eq_under? (ns : Option String) (name : String) :
    c.get? ns name = c.under? (ObjectKey.place ⟨ns.getD "", name⟩) := by
  rw [get?, memory, ObjectKey.place_eq]
  rfl

theorem keyOf_eq_none_iff {a : α} : c.keyOf a = none ↔
    (Resource.metadata a).name = none ∨ (Resource.metadata a).name = some "" := by
  rw [keyOf, memory, Keying.place?, Option.map_eq_none_iff]
  cases (Resource.metadata a).name with
  | none => simp [filled]
  | some name => by_cases empty : name = "" <;> simp [filled, empty]

/-- An object is refused if its name is absent or empty. -/
theorem apply_eq_error_iff {a : α} {e : Error} : c.apply a = .error e ↔
    ((Resource.metadata a).name = none ∨ (Resource.metadata a).name = some "") ∧
      e = KeyFault.unnamedObject.about "" := by
  rw [← keyOf_eq_none_iff memory, Cache.apply]
  cases c.keyOf a with
  | none => simp [eq_comm]
  | some key => simp

theorem take_eq (ns : Option String) (name : String) :
    c.take ns name = (c.get? ns name, c.changed (.delete ns name)) := by
  rw [take, get?_eq_under? memory, ObjectKey.place_eq, memory]
  rfl

/-- A change decides what is found under its key, and nothing else. -/
theorem Keyed.get?_changed (h : c.Keyed) (change : Change α) (ns : Option String)
    (name : String) : (c.changed change).get? ns name =
      if change.key? = some ⟨ns.getD "", name⟩ then change.object? else c.get? ns name := by
  have kept : (c.changed change).keying = .folding := (c.keying_changed change).trans memory
  have records : c.Records c.under? := ⟨h, fun _ => rfl⟩
  rw [get?_eq_under? kept, get?_eq_under? memory]
  cases change with
  | apply a =>
    cases own : (Resource.metadata a).key with
    | error e =>
      have keyless : c.keyOf a = none := by
        rw [keyOf_eq_place memory, own]
        rfl
      have refused : c.apply a = .error (KeyFault.unnamedObject.about "") := by
        rw [Cache.apply, keyless]
      simp [changed, refused, Change.key?, own, Except.toOption]
    | ok key =>
      have keyed : c.keyOf a = some key.place := by
        rw [keyOf_eq_place memory, own]
        rfl
      have applied := apply_eq_ok_iff.mpr ⟨_, keyed, rfl⟩
      have found := (records.apply keyed applied).looks
      rw [changed, applied]
      dsimp only
      rw [found, Function.update_apply]
      simp only [ObjectKey.place_inj, Change.key?, own, Except.toOption, Option.some.injEq,
        Change.object?, eq_comm]
  | delete other otherName =>
    have gone := (records.remove (ObjectKey.place ⟨other.getD "", otherName⟩)).looks
    have same : c.changed (.delete other otherName) =
        c.remove (ObjectKey.place ⟨other.getD "", otherName⟩) := by
      rw [ObjectKey.place_eq, changed, delete, memory]
      rfl
    rw [same, gone, Function.update_apply]
    simp only [ObjectKey.place_inj, Change.key?, Option.some.injEq, Change.object?, eq_comm]

end

/-- The cache that a history of changes makes of an empty one. -/
def filledBy (history : List (Change α)) : Cache α := history.foldl changed (empty .folding)

theorem filledBy_append (history : List (Change α)) (change : Change α) :
    filledBy (history ++ [change]) = (filledBy history).changed change := List.foldl_append

theorem filledBy_keyed (history : List (Change α)) :
    (filledBy history).Keyed ∧ (filledBy history).keying = .folding := by
  induction history using List.reverseRecOn with
  | nil => exact ⟨(Reached.empty .folding).keyed, rfl⟩
  | append_singleton history change ih =>
    obtain ⟨keyed, memory⟩ := ih
    rw [filledBy_append, keying_changed]
    exact ⟨(keyed.reached.changed change).keyed, memory⟩

/-- A look finds what the last change about the key has left there. -/
theorem get?_filledBy (history : List (Change α)) (ns : Option String) (name : String) :
    (filledBy history).get? ns name =
      (lastAbout history ⟨ns.getD "", name⟩).bind Change.object? := by
  induction history using List.reverseRecOn with
  | nil => rfl
  | append_singleton history change ih =>
    obtain ⟨keyed, memory⟩ := filledBy_keyed history
    rw [filledBy_append, keyed.get?_changed memory, ih, lastAbout, lastAbout, lastWith_append]
    by_cases about : change.key? = some ⟨ns.getD "", name⟩
    · simp [about]
    · simp [about]

theorem get?_filledBy_eq_some_iff {history : List (Change α)} {ns : Option String}
    {name : String} {a : α} : (filledBy history).get? ns name = some a ↔
      lastAbout history ⟨ns.getD "", name⟩ = some (.apply a) := by
  rw [get?_filledBy]
  cases lastAbout history ⟨ns.getD "", name⟩ with
  | none => simp
  | some change => cases change <;> simp [Change.object?]

theorem mem_filledBy_iff {history : List (Change α)} {a : α} :
    a ∈ (filledBy history).objects ↔ Live history a := by
  obtain ⟨keyed, memory⟩ := filledBy_keyed history
  constructor
  · intro ha
    obtain ⟨key, own⟩ := keyed.exists_key memory ha
    have found : (filledBy history).get? (some key.ns) key.name = some a :=
      (keyed.get?_folding memory).mpr ⟨ha, own⟩
    exact ⟨key, get?_filledBy_eq_some_iff.mp found⟩
  · rintro ⟨key, last⟩
    have found : (filledBy history).get? (some key.ns) key.name = some a :=
      get?_filledBy_eq_some_iff.mpr last
    exact mem_of_get? found

/-- What is read of the cache, by looks and by listings, is what the history has left. -/
structure Holds (c : Cache α) (history : List (Change α)) : Prop where
  looks : ∀ ns name a, c.get? ns name = some a ↔
    lastAbout history ⟨ns.getD "", name⟩ = some (.apply a)
  ownKey : ∀ ns name a, c.get? ns name = some a →
    (Resource.metadata a).key = .ok ⟨ns.getD "", name⟩
  placed : ∀ a ∈ c.objects, ∃ key, (Resource.metadata a).key = .ok key ∧
    c.get? (some key.ns) key.name = some a
  all_nodup : (c.list none Selector.everything).Nodup
  length_all : (c.list none Selector.everything).length = c.size
  mem_all_iff : ∀ a, a ∈ c.list none Selector.everything ↔ Live history a
  selected_nodup : ∀ ns requirements, (c.list ns (Selector.ofList requirements)).Nodup
  mem_selected_iff : ∀ ns requirements a, a ∈ c.list ns (Selector.ofList requirements) ↔
    Live history a ∧ (∀ n, ns = some n → (Resource.metadata a).ns = some n) ∧
      ∀ label value, lastWith (fun entry => entry.1 = label) requirements = some (label, value) →
        (Resource.metadata a).label? label = some value

theorem isSelected_iff {ns : Option String} {requirements : StringMap} {a : α} :
    isSelected ns (Selector.ofList requirements) a = true ↔
      (∀ n, ns = some n → (Resource.metadata a).ns = some n) ∧
        ∀ label value,
          lastWith (fun entry => entry.1 = label) requirements = some (label, value) →
            (Resource.metadata a).label? label = some value := by
  cases ns with
  | none => simp [isSelected, Selector.selects_ofList_iff, Metadata.label?]
  | some n => simp [isSelected, Selector.selects_ofList_iff, Metadata.label?]

theorem filledBy_holds (history : List (Change α)) : (filledBy history).Holds history := by
  obtain ⟨keyed, memory⟩ := filledBy_keyed history
  have all : (filledBy history).list none Selector.everything = (filledBy history).objects :=
    within_none (filledBy history)
  refine ⟨fun ns name a => get?_filledBy_eq_some_iff, fun ns name a found => ?_, fun a ha => ?_,
    ?_, ?_, fun a => ?_, fun ns requirements => ?_, fun ns requirements a => ?_⟩
  · exact ((keyed.get?_folding memory).mp found).2
  · obtain ⟨key, own⟩ := keyed.exists_key memory ha
    exact ⟨key, own, (keyed.get?_folding memory).mpr ⟨ha, own⟩⟩
  · rw [all]
    exact keyed.nodup
  · rw [all, size]
  · rw [all, mem_filledBy_iff]
  · exact keyed.nodup.filter _
  · rw [list, List.mem_filter, mem_filledBy_iff, isSelected_iff]

/-- A cache that is filled by hand is the map that its history makes. A refused object is as good
as never applied, and what is taken out is what was found there, under this key and no other. -/
theorem faithful_to_history (history : List (Change α)) :
    (filledBy history).Holds history ∧
    (∀ a e, (filledBy history).apply a = .error e ↔
      ((Resource.metadata a).name = none ∨ (Resource.metadata a).name = some "") ∧
        e = KeyFault.unnamedObject.about "") ∧
    (∀ a e, (filledBy history).apply a = .error e → ∀ later,
      filledBy (history ++ .apply a :: later) = filledBy (history ++ later)) ∧
    ∀ ns name,
      (filledBy history).take ns name =
        ((filledBy history).get? ns name, filledBy (history ++ [.delete ns name])) ∧
      ∀ other otherName, (filledBy (history ++ [.delete ns name])).get? other otherName =
        if other.getD "" = ns.getD "" ∧ otherName = name then none
        else (filledBy history).get? other otherName := by
  obtain ⟨keyed, memory⟩ := filledBy_keyed history
  refine ⟨filledBy_holds history, fun a e => apply_eq_error_iff memory,
    fun a e refused later => ?_, fun ns name => ⟨?_, fun other otherName => ?_⟩⟩
  · have same : (filledBy history).changed (.apply a) = filledBy history := by
      rw [changed, refused]
    change (history ++ .apply a :: later).foldl changed (empty .folding) =
      (history ++ later).foldl changed (empty .folding)
    rw [List.foldl_append, List.foldl_append, List.foldl_cons]
    exact congrArg (later.foldl changed) same
  · rw [take_eq memory, filledBy_append]
  · rw [filledBy_append, keyed.get?_changed memory]
    simp only [Change.key?, Change.object?, Option.some.injEq, ObjectKey.mk.injEq, eq_comm]

end Cache
end

namespace Lab

def lesserSolo : MachineSet := { solo with declared := some 1 }

def nameless : MachineSet := { solo with metadata := { solo.metadata with name := some "" } }

/-- `solo` is replaced, an object with an empty name is refused, and `part` comes and is taken. -/
def comings : List (Change MachineSet) := [.apply solo, .apply part, .apply lesserSolo]

theorem comings_told :
    (∃ e, (Cache.filledBy comings).apply nameless = .error e) ∧
    Cache.filledBy (comings ++ .apply nameless :: [.delete (some "lab") "part"]) =
      Cache.filledBy (comings ++ [.delete (some "lab") "part"]) ∧
    (Cache.filledBy comings).get? (some "lab") "solo" = some lesserSolo ∧
    ((Cache.filledBy comings).take (some "lab") "part").1 = some part ∧
    (Cache.filledBy (comings ++ [.delete (some "lab") "part"])).get? (some "lab") "solo" =
      some lesserSolo ∧
    solo ∉ (Cache.filledBy comings).list none Selector.everything := by
  obtain ⟨holds, refusal, unchanged, taken⟩ := Cache.faithful_to_history comings
  have refused := (refusal nameless _).mpr ⟨Or.inr rfl, rfl⟩
  have found := (holds.looks (some "lab") "solo" lesserSolo).mpr rfl
  obtain ⟨given, others⟩ := taken (some "lab") "part"
  refine ⟨⟨_, refused⟩, unchanged nameless _ refused _, found, ?_, ?_, fun listed => ?_⟩
  · rw [given]
    exact (holds.looks (some "lab") "part" part).mpr rfl
  · rw [others, if_neg (by decide)]
    exact found
  · -- What is listed would be found under its key, where there is another one.
    have held := Cache.mem_filledBy_iff.mpr ((holds.mem_all_iff solo).mp listed)
    obtain ⟨key, own, there⟩ := holds.placed solo held
    cases own
    cases found.symm.trans there

end Lab
end NodeGroups
