import Mathlib.Logic.Function.Basic
import NodeGroups.Proofs.Caches

/-!
# Caches as maps

A ledger says which object is under each key. A cache records a ledger when a look under any key
finds what the ledger has there; applying and removing objects then change one entry of it each.
A cache that was filled from a server and has followed its events records the ledger that the
listed objects and the events lead to, up to the first event with an object that has no name
(`follow` ends there), and all that is read of the cache is read of that ledger.
-/
namespace NodeGroups

/-- What is under each key. -/
abbrev Ledger (α : Type) := Option String × String → Option α

/-- An event that can be read applies an object or deletes one. -/
theorem WatchEvent.read_cases {α : Type} [Coded α] (event : WatchEvent) :
    (event.read : Option (StoreEvent α)) = none ∨
      (∃ a : α, event.read = some (.apply a)) ∨ ∃ a : α, event.read = some (.delete a) := by
  cases event with
  | added object | modified object =>
    cases decoded : (Coded.ofJson? object : Option α) with
    | none => exact Or.inl (congrArg (Option.map _) decoded)
    | some a => exact Or.inr (Or.inl ⟨a, congrArg (Option.map _) decoded⟩)
  | deleted object =>
    cases decoded : (Coded.ofJson? object : Option α) with
    | none => exact Or.inl (congrArg (Option.map _) decoded)
    | some a => exact Or.inr (Or.inr ⟨a, congrArg (Option.map _) decoded⟩)
  | bookmark => exact Or.inl rfl

section
variable {α : Type} [Resource α]

namespace StoreEvent

/-- The object of an event, if it has one. -/
def object? : StoreEvent α → Option α
  | .apply a | .delete a | .relisted a => some a
  | .relist | .relistDone => none

/-- Whether the object of the event has a name, if there is one. -/
def isNamed (event : StoreEvent α) : Bool :=
  event.object?.all fun a => (Resource.metadata a).name.isSome

end StoreEvent

namespace Ledger

def blank : Ledger α := fun _ => none

/-- The namespace and the name as they are, which is how a server tells objects apart. -/
def key (a : α) : Option String × String :=
  ((Resource.metadata a).ns, (Resource.metadata a).name.getD "")

def step (l : Ledger α) : StoreEvent α → Ledger α
  | .apply a => Function.update l (key a) (some a)
  | .delete a => Function.update l (key a) none
  | _ => l

/-- What is under each key after the events. -/
def after (l : Ledger α) (events : List (StoreEvent α)) : Ledger α := events.foldl step l

theorem after_append (l : Ledger α) (first second : List (StoreEvent α)) :
    l.after (first ++ second) = (l.after first).after second := List.foldl_append

end Ledger

namespace Cache

variable {c d : Cache α} {l : Ledger α}

theorem keyOf_of_exact (exact : c.keying = .exact) {a : α}
    (named : (Resource.metadata a).name.isSome) : c.keyOf a = some (Ledger.key a) := by
  obtain ⟨name, there⟩ := Option.isSome_iff_exists.mp named
  refine (keyOf_exact exact).mpr ⟨rfl, ?_⟩
  rw [there]
  rfl

theorem keyOf_of_unnamed (exact : c.keying = .exact) {a : α}
    (unnamed : ¬ (Resource.metadata a).name.isSome) : c.keyOf a = none := by
  rw [keyOf, exact, Keying.place?, Option.not_isSome_iff_eq_none.mp unnamed]
  rfl

/-- A look under each key finds what the ledger has there. -/
structure Records (c : Cache α) (l : Ledger α) : Prop where
  keyed : c.Keyed
  looks : ∀ key, c.under? key = l key

theorem Records.empty (keying : Keying) : (Cache.empty keying : Cache α).Records Ledger.blank :=
  ⟨(Reached.empty keying).keyed, fun _ => rfl⟩

theorem Records.apply (h : c.Records l) {a : α} {key : Option String × String}
    (keyed : c.keyOf a = some key) (applied : c.apply a = .ok d) :
    d.Records (Function.update l key (some a)) := by
  have keyedd := h.keyed.apply applied
  refine ⟨keyedd, fun other => Option.ext fun b => ?_⟩
  obtain ⟨_, same, rfl⟩ := apply_eq_ok_iff.mp applied
  cases keyed.symm.trans same
  rw [keyedd.under?_eq_some_iff, Function.update_apply, ← h.looks]
  have mem : b ∈ insertInOrder a (c.remove key).objects ↔
      b = a ∨ b ∈ c.objects ∧ c.keyOf b ≠ some key := by
    rw [(insertInOrder_perm a _).mem_iff, List.mem_cons, remove]
    simp
  change b ∈ insertInOrder a (c.remove key).objects ∧ c.keyOf b = some other ↔ _
  rw [mem]
  by_cases there : other = key
  · subst there
    rw [if_pos rfl, Option.some.injEq]
    constructor
    · rintro ⟨rfl | ⟨-, ne⟩, keyb⟩
      · rfl
      · exact absurd keyb ne
    · rintro rfl
      exact ⟨Or.inl rfl, keyed⟩
  · rw [if_neg there, h.keyed.under?_eq_some_iff]
    constructor
    · rintro ⟨rfl | ⟨hb, -⟩, keyb⟩
      · exact absurd (Option.some.inj (keyb.symm.trans keyed)) there
      · exact ⟨hb, keyb⟩
    · rintro ⟨hb, keyb⟩
      exact ⟨Or.inr ⟨hb, fun he => there (Option.some.inj (keyb.symm.trans he))⟩, keyb⟩

theorem Records.remove (h : c.Records l) (key : Option String × String) :
    (c.remove key).Records (Function.update l key none) := by
  have left := h.keyed.remove key
  refine ⟨left, fun other => Option.ext fun b => ?_⟩
  rw [left.under?_eq_some_iff, Function.update_apply, ← h.looks]
  change b ∈ c.objects.filter _ ∧ c.keyOf b = some other ↔ _
  rw [List.mem_filter, bne_iff_ne]
  by_cases there : other = key
  · subst there
    rw [if_pos rfl]
    constructor
    · rintro ⟨⟨-, ne⟩, keyb⟩
      exact absurd keyb ne
    · intro hb
      cases hb
  · rw [if_neg there, h.keyed.under?_eq_some_iff]
    constructor
    · rintro ⟨⟨hb, -⟩, keyb⟩
      exact ⟨hb, keyb⟩
    · rintro ⟨hb, keyb⟩
      exact ⟨⟨hb, fun he => there (Option.some.inj (keyb.symm.trans he))⟩, keyb⟩

theorem Records.mem_iff (h : c.Records l) {a : α} : a ∈ c.objects ↔ ∃ key, l key = some a := by
  constructor
  · intro ha
    obtain ⟨key, keyed⟩ := Option.ne_none_iff_exists'.mp (h.keyed.hasKey a ha)
    exact ⟨key, by rw [← h.looks, h.keyed.under?_eq_some_iff.mpr ⟨ha, keyed⟩]⟩
  · rintro ⟨key, there⟩
    rw [← h.looks] at there
    exact (h.keyed.under?_eq_some_iff.mp there).1

/-! ## Caches that follow a server -/

/-- The cache keys as the server does, and records the ledger. -/
structure Follows (c : Cache α) (l : Ledger α) : Prop extends Records c l where
  exact : c.keying = .exact

namespace Follows

theorem apply (h : c.Follows l) {a : α} (named : (Resource.metadata a).name.isSome) :
    ∃ d, c.apply a = .ok d ∧ d.Follows (l.step (.apply a)) := by
  have key := keyOf_of_exact h.exact named
  have applied := apply_eq_ok_iff.mpr ⟨_, key, rfl⟩
  exact ⟨_, applied, h.toRecords.apply key applied, h.exact⟩

theorem apply_unnamed (h : c.Follows l) {a : α} (unnamed : ¬ (Resource.metadata a).name.isSome) :
    ∃ e, c.apply a = .error e := by
  refine ⟨KeyFault.unnamedObject.about "", ?_⟩
  rw [Cache.apply, keyOf_of_unnamed h.exact unnamed]

/-- Objects with names are all inserted. -/
theorem fill (h : c.Follows l) {objects : List α}
    (named : ∀ a ∈ objects, (Resource.metadata a).name.isSome) :
    ∃ d, NodeGroups.fill c objects = some d ∧ d.Follows (l.after (objects.map .apply)) := by
  induction objects generalizing c l with
  | nil => exact ⟨c, rfl, h⟩
  | cons a rest ih =>
    obtain ⟨d, applied, next⟩ := h.apply (named a List.mem_cons_self)
    obtain ⟨e, filled, last⟩ := ih next fun b hb => named b (List.mem_cons_of_mem a hb)
    exact ⟨e, by rw [NodeGroups.fill, applied]; exact filled, last⟩

/-- One object without a name is enough to end the filling. -/
theorem fill_unnamed (h : c.Follows l) {objects : List α} {a : α} (ha : a ∈ objects)
    (unnamed : ¬ (Resource.metadata a).name.isSome) : NodeGroups.fill c objects = none := by
  induction objects generalizing c l with
  | nil => cases ha
  | cons b rest ih =>
    rw [NodeGroups.fill]
    by_cases named : (Resource.metadata b).name.isSome
    · obtain ⟨d, applied, next⟩ := h.apply named
      rw [applied]
      rcases List.mem_cons.mp ha with rfl | ha
      · exact absurd named unnamed
      · exact ih next ha
    · obtain ⟨e, refused⟩ := h.apply_unnamed named
      rw [refused]

/-- What the events lead to, up to the first one with an object that has no name. -/
theorem follow [Coded α] (h : c.Follows l) (events : List WatchEvent) :
    (NodeGroups.follow c events).Follows
      (l.after ((events.filterMap WatchEvent.read).takeWhile StoreEvent.isNamed)) := by
  induction events generalizing c l with
  | nil => exact h
  | cons event rest ih =>
    rw [NodeGroups.follow]
    rcases event.read_cases (α := α) with read | ⟨a, read⟩ | ⟨a, read⟩
    · rw [List.filterMap_cons_none read, read]
      exact ih h
    · rw [List.filterMap_cons_some read, read]
      dsimp only
      by_cases named : (StoreEvent.apply a).isNamed
      · obtain ⟨d, applied, next⟩ := h.apply named
        rw [applied, List.takeWhile_cons_of_pos named]
        exact ih next
      · obtain ⟨e, refused⟩ := h.apply_unnamed named
        rw [refused, List.takeWhile_cons_of_neg named]
        exact h
    · rw [List.filterMap_cons_some read, read]
      dsimp only
      by_cases named : (StoreEvent.delete a).isNamed
      · rw [keyOf_of_exact h.exact named, List.takeWhile_cons_of_pos named]
        exact ih ⟨h.toRecords.remove _, h.exact⟩
      · rw [keyOf_of_unnamed h.exact named, List.takeWhile_cons_of_neg named]
        exact h

end Follows

/-- All that is read of the cache is read of the ledger. A listing has no object twice. -/
structure AnswersFrom (c : Cache α) (l : Ledger α) : Prop where
  looks : ∀ ns name, c.get? ns name = (l (ns, name) <|> l (none, name))
  mem_list_iff : ∀ ns selector a,
    a ∈ c.list ns selector ↔ (∃ key, l key = some a) ∧ isSelected ns selector a = true
  list_nodup : ∀ ns selector, (c.list ns selector).Nodup

theorem Follows.answersFrom (h : c.Follows l) : c.AnswersFrom l where
  looks ns name := by
    rw [get?, h.exact]
    simp only [h.looks]
  mem_list_iff ns selector a := by rw [list, List.mem_filter, h.mem_iff]
  list_nodup ns selector := h.keyed.nodup.filter _

end Cache

end
end NodeGroups
