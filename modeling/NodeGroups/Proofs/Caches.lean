import Mathlib.Data.List.Nodup
import NodeGroups.Sync

/-!
# What a cache holds

A cache is `Keyed` when every object in it has a key and no two have the same one. Applying and
removing objects keeps this, so that it holds of every cache that was filled from nothing
(`Reached`), by hand, by a store that follows a server or at the start. From it follows what a
look under a namespace and a name finds. The order in which objects are listed is never used.
-/
namespace NodeGroups

theorem filled_eq_some_iff {o : Option String} {s : String} :
    filled o = some s ↔ o = some s ∧ s ≠ "" := by
  cases o with
  | none => simp [filled]
  | some t =>
    by_cases ht : t = ""
    · subst ht
      simp only [filled, if_true, reduceCtorEq, Option.some.injEq, false_iff, not_and, not_not]
      exact fun h => h.symm
    · simp only [filled, if_neg ht, Option.some.injEq]
      exact ⟨fun h => ⟨h, h ▸ ht⟩, fun h => h.1⟩

theorem filled_eq_filled_iff {o p : Option String} :
    filled o = filled p ↔ o.getD "" = p.getD "" := by
  cases o with
  | none =>
    cases p with
    | none => simp [filled]
    | some t => by_cases ht : t = "" <;> simp [filled, ht, eq_comm]
  | some s =>
    cases p with
    | none => by_cases hs : s = "" <;> simp [filled, hs]
    | some t => by_cases hs : s = "" <;> by_cases ht : t = "" <;> simp [filled, hs, ht, eq_comm]

theorem eq_some_of_getD {o : Option String} {s : String} (h : o.getD "" = s) (ne : s ≠ "") :
    o = some s := by
  cases o with
  | none => exact absurd h.symm ne
  | some t => exact congrArg some h

namespace Metadata

/-- An object has a key when its name is there and not empty; an absent namespace counts as
the empty one. -/
theorem key_eq_ok_iff {m : Metadata} {k : ObjectKey} :
    m.key = .ok k ↔ m.ns.getD "" = k.ns ∧ m.name = some k.name ∧ k.name ≠ "" := by
  cases hn : m.name with
  | none => simp [key, hn]
  | some name =>
    by_cases he : name = ""
    · subst he
      simp only [key, hn, if_true, reduceCtorEq, Option.some.injEq, false_iff]
      rintro ⟨-, h, hk⟩
      exact hk h.symm
    · simp only [key, hn, if_neg he, Except.ok.injEq, Option.some.injEq]
      constructor
      · rintro rfl
        exact ⟨rfl, rfl, he⟩
      · rintro ⟨hns, hname, -⟩
        rw [hns, hname]

theorem displayName_of_name {m : Metadata} {name : String} (h : m.name = some name) :
    m.displayName = name := by
  rw [displayName, h]
  rfl

end Metadata

/-- A namespace that is not empty is kept apart from none, however a cache keys. -/
theorem Keying.place_some {k : Keying} {ns : String} (h : ns ≠ "") :
    k.place (some ns) = some ns := by
  cases k with
  | folding => exact filled_eq_some_iff.mpr ⟨rfl, h⟩
  | exact => rfl

namespace Cache

variable {α : Type} [Resource α]

/-- Every object has a key and no two have the same one. -/
structure Keyed (c : Cache α) : Prop where
  hasKey : ∀ a ∈ c.objects, c.keyOf a ≠ none
  distinct : (c.objects.map c.keyOf).Nodup

instance (c : Cache α) : Decidable c.Keyed :=
  decidable_of_iff ((∀ a ∈ c.objects, c.keyOf a ≠ none) ∧ (c.objects.map c.keyOf).Nodup)
    ⟨fun h => ⟨h.1, h.2⟩, fun h => ⟨h.1, h.2⟩⟩

/-- The caches that can be filled from nothing. The order of the listing is left open, since
a cache may keep its objects in any. -/
inductive Reached : Cache α → Prop where
  | empty (keying : Keying) : Reached (Cache.empty keying)
  | apply {c d : Cache α} {a : α} (hc : Reached c) (h : c.apply a = .ok d) : Reached d
  | remove {c : Cache α} (hc : Reached c) (key : Option String × String) : Reached (c.remove key)
  | reorder {c d : Cache α} (hc : Reached c) (keying : d.keying = c.keying)
      (perm : d.objects.Perm c.objects) : Reached d

theorem insertInOrder_perm (a : α) (l : List α) : (insertInOrder a l).Perm (a :: l) := by
  induction l with
  | nil => exact .refl _
  | cons b rest ih =>
    rw [insertInOrder]
    split
    · exact (ih.cons b).trans (.swap a b rest)
    · exact .refl _

theorem apply_eq_ok_iff {c d : Cache α} {a : α} :
    c.apply a = .ok d ↔ ∃ key, c.keyOf a = some key ∧
      d = { c with objects := insertInOrder a (c.remove key).objects } := by
  cases hk : c.keyOf a with
  | none => simp [apply, hk]
  | some key => simp [apply, hk, eq_comm]

/-- The keys of a cache depend on how it keys and on nothing else. -/
theorem keyOf_eq {c d : Cache α} (h : d.keying = c.keying) : d.keyOf = c.keyOf := by
  funext a
  rw [keyOf, keyOf, h]

theorem Keyed.perm {c d : Cache α} (hc : c.Keyed) (keying : d.keying = c.keying)
    (perm : d.objects.Perm c.objects) : d.Keyed := by
  have hk := keyOf_eq keying
  refine ⟨fun a ha => ?_, ?_⟩
  · rw [hk]
    exact hc.hasKey a (perm.mem_iff.mp ha)
  · rw [hk]
    exact (perm.map c.keyOf).nodup_iff.mpr hc.distinct

theorem Keyed.remove {c : Cache α} (hc : c.Keyed) (key : Option String × String) :
    (c.remove key).Keyed :=
  ⟨fun a ha => hc.hasKey a (List.mem_of_mem_filter ha),
    (List.filter_sublist.map c.keyOf).nodup hc.distinct⟩

theorem Keyed.apply {c d : Cache α} {a : α} (hc : c.Keyed) (h : c.apply a = .ok d) :
    d.Keyed := by
  obtain ⟨key, hk, rfl⟩ := apply_eq_ok_iff.mp h
  have rest := hc.remove key
  have fresh : c.keyOf a ∉ (c.remove key).objects.map c.keyOf := by
    intro hm
    obtain ⟨b, hb, he⟩ := List.mem_map.mp hm
    have hne := (List.mem_filter.mp hb).2
    rw [he, hk] at hne
    simp at hne
  have keyed : Keyed { c with objects := a :: (c.remove key).objects } := by
    refine ⟨fun b hb => ?_, List.nodup_cons.mpr ⟨fresh, rest.distinct⟩⟩
    rcases List.mem_cons.mp hb with rfl | hb
    · change c.keyOf b ≠ none
      simp [hk]
    · exact rest.hasKey b hb
  exact keyed.perm rfl (insertInOrder_perm a _)

theorem Reached.keyed {c : Cache α} (h : c.Reached) : c.Keyed := by
  induction h with
  | empty keying => exact ⟨by simp [Cache.empty], by simp [Cache.empty]⟩
  | apply _ h ih => exact ih.apply h
  | remove _ key ih => exact ih.remove key
  | reorder _ keying perm ih => exact ih.perm keying perm

/-- Every keyed cache is the one that applying its own objects leads to. -/
theorem Keyed.reached {c : Cache α} (h : c.Keyed) : c.Reached := by
  obtain ⟨keying, objects⟩ := c
  induction objects with
  | nil => exact .empty keying
  | cons a rest ih =>
    have distinct := List.nodup_cons.mp h.distinct
    have restKeyed : Keyed ⟨keying, rest⟩ :=
      ⟨fun b hb => h.hasKey b (List.mem_cons_of_mem a hb), distinct.2⟩
    obtain ⟨key, hk⟩ := Option.ne_none_iff_exists'.mp (h.hasKey a List.mem_cons_self)
    -- Nothing in the rest has the key of the first object, so that applying it replaces nothing.
    have apart : (Cache.remove ⟨keying, rest⟩ key).objects = rest := by
      refine List.filter_eq_self.mpr fun b hb => ?_
      have hne : keyOf ⟨keying, rest⟩ b ≠ some key := by
        intro he
        exact distinct.1 (List.mem_map.mpr ⟨b, hb, he.trans hk.symm⟩)
      simpa using hne
    have applied : Cache.apply ⟨keying, rest⟩ a = .ok ⟨keying, insertInOrder a rest⟩ :=
      apply_eq_ok_iff.mpr ⟨key, hk, by rw [apart]⟩
    exact .reorder (.apply (ih restKeyed) applied) rfl (insertInOrder_perm a rest).symm

/-- The invariant says all there is to say about how a cache came to be. -/
theorem reached_iff_keyed {c : Cache α} : c.Reached ↔ c.Keyed := ⟨Reached.keyed, Keyed.reached⟩

/-! ## What a look finds -/

theorem Keyed.nodup {c : Cache α} (h : c.Keyed) : c.objects.Nodup := h.distinct.of_map _

theorem Keyed.under?_eq_some_iff {c : Cache α} (h : c.Keyed) {key : Option String × String}
    {a : α} : c.under? key = some a ↔ a ∈ c.objects ∧ c.keyOf a = some key := by
  constructor
  · intro hf
    exact ⟨List.mem_of_find?_eq_some hf, by simpa using List.find?_some hf⟩
  · rintro ⟨ha, hk⟩
    have found : (c.under? key).isSome := List.find?_isSome.mpr ⟨a, ha, by simp [hk]⟩
    obtain ⟨b, hb⟩ := Option.isSome_iff_exists.mp found
    have hkb : c.keyOf b = some key := by simpa using List.find?_some hb
    have same := List.inj_on_of_nodup_map h.distinct (List.mem_of_find?_eq_some hb) ha
      (hkb.trans hk.symm)
    rw [hb, same]

theorem mem_of_get? {c : Cache α} {ns : Option String} {name : String} {a : α}
    (h : c.get? ns name = some a) : a ∈ c.objects := by
  rw [get?] at h
  split at h
  · exact List.mem_of_find?_eq_some h
  · cases first : c.under? (ns, name) with
    | none =>
      rw [first] at h
      exact List.mem_of_find?_eq_some h
    | some b =>
      rw [first] at h
      cases h
      exact List.mem_of_find?_eq_some first

/-- A look outside all namespaces has nowhere to fall back to. -/
theorem get?_none (c : Cache α) (name : String) : c.get? none name = c.under? (none, name) := by
  obtain ⟨keying, objects⟩ := c
  cases keying with
  | folding => rfl
  | exact => simp [get?]

theorem Keyed.get?_none_eq_some_iff {c : Cache α} (h : c.Keyed) {name : String} {a : α} :
    c.get? none name = some a ↔ a ∈ c.objects ∧ c.keyOf a = some (none, name) := by
  rw [get?_none, h.under?_eq_some_iff]

theorem keyOf_eq_some {c : Cache α} {ns : Option String} {name : String} {a : α}
    (h : c.keyOf a = some (ns, name)) :
    c.keying.place (Resource.metadata a).ns = ns ∧ (Resource.metadata a).name = some name := by
  rw [keyOf] at h
  cases hc : c.keying with
  | folding =>
    rw [hc] at h
    obtain ⟨other, named, he⟩ := Option.map_eq_some_iff.mp h
    cases he
    exact ⟨rfl, (filled_eq_some_iff.mp named).1⟩
  | exact =>
    rw [hc] at h
    obtain ⟨other, named, he⟩ := Option.map_eq_some_iff.mp h
    cases he
    exact ⟨rfl, named⟩

theorem keyOf_of_name {c : Cache α} {a b : α}
    (ns : (Resource.metadata a).ns = (Resource.metadata b).ns)
    (name : (Resource.metadata a).name = (Resource.metadata b).name) : c.keyOf a = c.keyOf b := by
  rw [keyOf, keyOf]
  cases c.keying <;> simp only [Keying.place?, ns, name]

/-- A cached object is shown by its name, and in its namespace no other one is shown so. -/
theorem Keyed.eq_of_displayName {c : Cache α} (h : c.Keyed) {a b : α}
    (ha : a ∈ c.objects) (hb : b ∈ c.objects)
    (ns : (Resource.metadata a).ns = (Resource.metadata b).ns)
    (shown : (Resource.metadata a).displayName = (Resource.metadata b).displayName) : a = b := by
  obtain ⟨⟨_, namea⟩, keya⟩ := Option.ne_none_iff_exists'.mp (h.hasKey a ha)
  obtain ⟨⟨_, nameb⟩, keyb⟩ := Option.ne_none_iff_exists'.mp (h.hasKey b hb)
  have hna := (keyOf_eq_some keya).2
  have hnb := (keyOf_eq_some keyb).2
  rw [Metadata.displayName_of_name hna, Metadata.displayName_of_name hnb] at shown
  exact List.inj_on_of_nodup_map h.distinct ha hb
    (keyOf_of_name ns (hna.trans ((congrArg some shown).trans hnb.symm)))

/-- Objects of a kind without namespaces are found by their names. -/
theorem Keyed.get?_name_eq_some_iff {c : Cache α} (h : c.Keyed)
    (bare : ∀ a ∈ c.objects, (Resource.metadata a).ns = none) {name : String} {a : α} :
    c.get? none name = some a ↔ a ∈ c.objects ∧ (Resource.metadata a).name = some name := by
  rw [h.get?_none_eq_some_iff]
  constructor
  · rintro ⟨ha, hk⟩
    exact ⟨ha, (keyOf_eq_some hk).2⟩
  · rintro ⟨ha, hname⟩
    obtain ⟨⟨ns, other⟩, hk⟩ := Option.ne_none_iff_exists'.mp (h.hasKey a ha)
    obtain ⟨place, hother⟩ := keyOf_eq_some hk
    cases hname.symm.trans hother
    have nowhere : c.keying.place none = none := by cases c.keying <;> rfl
    rw [bare a ha, nowhere] at place
    exact ⟨ha, by rw [hk, place]⟩

/-- No look under a namespace falls back to an object that is in none. -/
def Direct (c : Cache α) : Prop :=
  c.keying = .folding ∨ ∀ a ∈ c.objects, (Resource.metadata a).ns ≠ none

theorem keyOf_folding {c : Cache α} (hc : c.keying = .folding) {ns : Option String}
    {name : String} {a : α} : c.keyOf a = some (filled ns, name) ↔
      (Resource.metadata a).key = .ok ⟨ns.getD "", name⟩ := by
  rw [keyOf, hc, Keying.place?, Metadata.key_eq_ok_iff, ← filled_eq_filled_iff,
    ← filled_eq_some_iff]
  cases filled (Resource.metadata a).name with
  | none => simp
  | some other => simp

/-- An object of a cache that was filled by hand has a key. -/
theorem Keyed.exists_key {c : Cache α} (h : c.Keyed) (hc : c.keying = .folding) {a : α}
    (ha : a ∈ c.objects) : ∃ key, (Resource.metadata a).key = .ok key := by
  obtain ⟨⟨ns, name⟩, keyed⟩ := Option.ne_none_iff_exists'.mp (h.hasKey a ha)
  obtain ⟨place, -⟩ := keyOf_eq_some keyed
  rw [hc] at place
  subst place
  exact ⟨_, (keyOf_folding hc).mp keyed⟩

theorem keyOf_exact {c : Cache α} (hc : c.keying = .exact) {ns : Option String}
    {name : String} {a : α} : c.keyOf a = some (ns, name) ↔
      (Resource.metadata a).ns = ns ∧ (Resource.metadata a).name = some name := by
  rw [keyOf, hc, Keying.place?]
  cases (Resource.metadata a).name with
  | none => simp
  | some other => simp

/-- A cache filled by hand finds the object whose key it is asked for. -/
theorem Keyed.get?_folding {c : Cache α} (h : c.Keyed) (hc : c.keying = .folding)
    {ns : Option String} {name : String} {a : α} : c.get? ns name = some a ↔
      a ∈ c.objects ∧ (Resource.metadata a).key = .ok ⟨ns.getD "", name⟩ := by
  rw [← keyOf_folding hc, ← h.under?_eq_some_iff, get?, hc]
  rfl

/-- The same holds of every cache that has no object to fall back to. -/
theorem Keyed.get?_eq_some_iff {c : Cache α} (h : c.Keyed) (direct : c.Direct)
    {ns name : String} (hname : name ≠ "") {a : α} : c.get? (some ns) name = some a ↔
      a ∈ c.objects ∧ (Resource.metadata a).key = .ok ⟨ns, name⟩ := by
  rcases direct with hc | hns
  · exact h.get?_folding hc
  cases hk : c.keying with
  | folding => exact h.get?_folding hk
  | exact =>
    have lone : c.under? (none, name) = none := by
      by_contra hne
      obtain ⟨b, hb⟩ := Option.ne_none_iff_exists'.mp hne
      have found := h.under?_eq_some_iff.mp hb
      exact hns b found.1 ((keyOf_exact hk).mp found.2).1
    have look : c.get? (some ns) name = c.under? (some ns, name) := by
      simp [get?, hk, lone]
    rw [look, h.under?_eq_some_iff, keyOf_exact hk, Metadata.key_eq_ok_iff]
    constructor
    · rintro ⟨ha, hn, hm⟩
      exact ⟨ha, by rw [hn]; rfl, hm, hname⟩
    · rintro ⟨ha, hn, hm, -⟩
      obtain ⟨other, ho⟩ := Option.ne_none_iff_exists'.mp (hns a ha)
      rw [ho] at hn
      exact ⟨ha, ho.trans (congrArg some hn), hm⟩

/-- Two objects of one cache that have one key as text are the same object. -/
theorem Keyed.eq_of_key {c : Cache α} (h : c.Keyed) (direct : c.Direct) {a b : α}
    {k : ObjectKey} (ha : a ∈ c.objects) (hb : b ∈ c.objects)
    (hka : (Resource.metadata a).key = .ok k) (hkb : (Resource.metadata b).key = .ok k) :
    a = b := by
  have hname := (Metadata.key_eq_ok_iff.mp hka).2.2
  have fa := (h.get?_eq_some_iff direct hname).mpr ⟨ha, hka⟩
  have fb := (h.get?_eq_some_iff direct hname).mpr ⟨hb, hkb⟩
  exact Option.some.inj (fa.symm.trans fb)

theorem within_none (c : Cache α) : c.within none = c.objects :=
  List.filter_eq_self.mpr fun _ _ => by simp [isSelected, Selector.selects_everything]

/-- Whether an object is in the namespace. -/
def housed (s : String) (a : α) : Bool := (Resource.metadata a).ns = some s

theorem within_some (c : Cache α) (s : String) : c.within (some s) = c.objects.filter (housed s) :=
  List.filter_congr fun _ _ => by
    rw [Bool.eq_iff_iff]
    simp [isSelected, Selector.selects_everything, housed]

theorem mem_within_iff {c : Cache α} {ns : Option String} {a : α} : a ∈ c.within ns ↔
    a ∈ c.objects ∧ ∀ n, ns = some n → (Resource.metadata a).ns = some n := by
  cases ns with
  | none => simp [within, list, isSelected, Selector.selects_everything]
  | some n => simp [within, list, isSelected, Selector.selects_everything]

theorem Keyed.within_nodup {c : Cache α} (h : c.Keyed) (ns : Option String) :
    (c.within ns).Nodup := h.nodup.filter _

/-! ## Caches that are filled otherwise -/

theorem Reached.delete {c : Cache α} (h : c.Reached) (ns : Option String) (name : String) :
    (c.delete ns name).Reached := h.remove _

theorem Reached.forget {c : Cache α} (h : c.Reached) (a : α) : (c.forget a).Reached := by
  rw [Cache.forget]
  split
  · exact h
  · exact h.remove _

theorem Reached.fill {c d : Cache α} {l : List α} (hc : c.Reached)
    (h : NodeGroups.fill c l = some d) : d.Reached := by
  induction l generalizing c with
  | nil =>
    cases h
    exact hc
  | cons a rest ih =>
    rw [NodeGroups.fill] at h
    split at h
    · cases h
    · next next applied => exact ih (hc.apply applied) h

theorem Reached.follow [Coded α] {c : Cache α} (hc : c.Reached) (events : List WatchEvent) :
    (NodeGroups.follow c events).Reached := by
  induction events generalizing c with
  | nil => exact hc
  | cons event rest ih =>
    rw [NodeGroups.follow]
    split
    · split
      · exact hc
      · next next applied => exact ih (hc.apply applied)
    · split
      · exact hc
      · exact ih (hc.remove _)
    · exact ih hc

end Cache

/-- Both what a store shows and what it collects are caches that were filled from nothing. -/
theorem Store.step_reached {α : Type} [Resource α] {s t : Store α} {event : StoreEvent α}
    (held : s.held.Reached) (collected : s.collected.Reached) (h : s.step event = .ok t) :
    t.held.Reached ∧ t.collected.Reached := by
  cases event with
  | apply a =>
    cases ha : s.held.apply a with
    | error e => simp [Store.step, ha, Except.map] at h
    | ok c =>
      simp only [Store.step, ha, Except.map, Except.ok.injEq] at h
      subst h
      exact ⟨held.apply ha, collected⟩
  | delete a =>
    cases h
    exact ⟨held.forget a, collected⟩
  | relist =>
    cases h
    exact ⟨held, .empty _⟩
  | relisted a =>
    cases ha : s.collected.apply a with
    | error e => simp [Store.step, ha, Except.map] at h
    | ok c =>
      simp only [Store.step, ha, Except.map, Except.ok.injEq] at h
      subst h
      exact ⟨held, collected.apply ha⟩
  | relistDone =>
    cases h
    exact ⟨collected, .empty _⟩

namespace Cluster

/-- All four caches were filled from nothing. -/
structure Reached (c : Cluster) : Prop where
  nodes : c.nodes.Reached
  machines : c.machines.Reached
  machineSets : c.machineSets.Reached
  machineDeployments : c.machineDeployments.Reached

/-- All four caches are filled by hand. -/
structure InMemory (c : Cluster) : Prop where
  nodes : c.nodes.keying = .folding
  machines : c.machines.keying = .folding
  machineSets : c.machineSets.keying = .folding
  machineDeployments : c.machineDeployments.keying = .folding

end Cluster

theorem ListAnswer.listing_reached {α : Type} [Resource α] [Coded α] {answer : ListAnswer}
    {c : Cache α} (h : answer.listing = .ready c) : c.Reached := by
  cases answer with
  | items objects =>
    rw [ListAnswer.listing] at h
    split at h
    · cases h
    · split at h
      · cases h
      · next cache filled =>
        cases h
        exact (Cache.Reached.empty .exact).fill filled
  | refused => cases h
  | silent => cases h

/-- Whatever the server answers, the caches at the start and after all events were filled
from nothing. -/
theorem Cluster.start_reached {server : ApiServer} {s : Settings} {c : Cluster}
    (h : Cluster.start server s = .ok c) : c.Reached := by
  rw [Cluster.start] at h
  split at h
  · cases h
  split at h
  · cases h
  split at h
  · next n m ms md hn hm hms hmd =>
    cases h
    exact ⟨(ListAnswer.listing_reached hn).follow _, (ListAnswer.listing_reached hm).follow _,
      (ListAnswer.listing_reached hms).follow _, (ListAnswer.listing_reached hmd).follow _⟩
  · cases h

end NodeGroups
