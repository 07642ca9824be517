import Mathlib.Data.List.Find
import NodeGroups.Proofs.Agreement
import NodeGroups.Proofs.Enumeration
import NodeGroups.Proofs.Ledgers

/-!
# The two backends

One history of changes can be told to a store, as events, and to a cache that is filled by hand,
for which a relist is no more than deleting everything and applying what was listed (`Mirror`).
Over objects with names, in namespaces that are absent or not empty, the two key alike, and so
hold the same objects at every point. Listings are the same, and looks too but for one: in a
namespace with no object of the name, the store answers with the object of the name that is in
none. With all objects of the namespaced kinds in namespaces there is no such object to be
looked for, and the directory answers the same over both.
-/
namespace NodeGroups

/-- The name is there, and neither it nor the namespace is empty. -/
structure Metadata.Regular (m : Metadata) : Prop where
  named : m.name ≠ none
  name : m.name ≠ some ""
  ns : m.ns ≠ some ""

instance (m : Metadata) : Decidable m.Regular :=
  decidable_of_iff (m.name ≠ none ∧ m.name ≠ some "" ∧ m.ns ≠ some "")
    ⟨fun h => ⟨h.1, h.2.1, h.2.2⟩, fun h => ⟨h.1, h.2, h.3⟩⟩

theorem Keying.place_of_ne (k : Keying) {ns : Option String} (h : ns ≠ some "") :
    k.place ns = ns := by
  cases ns with
  | none => cases k <;> rfl
  | some ns => exact place_some (by simpa using h)

theorem Metadata.Regular.place? {m : Metadata} (h : m.Regular) (k : Keying) :
    k.place? m = some (m.ns, m.name.getD "") := by
  obtain ⟨name, there⟩ := Option.ne_none_iff_exists'.mp h.named
  have full : name ≠ "" := fun he => h.name (there.trans (congrArg some he))
  cases k with
  | folding =>
    have ns : filled m.ns = m.ns := Keying.place_of_ne .folding h.ns
    rw [Keying.place?, there, filled_eq_some_iff.mpr ⟨rfl, full⟩, ns]
    rfl
  | exact =>
    rw [Keying.place?, there]
    rfl

/-- Two folds over one list go through side by side when each step does. -/
theorem foldlM_alike {β σ τ : Type} {f : σ → β → Except Error σ} {g : τ → β → Except Error τ}
    {P : β → Prop} {R : σ → τ → Prop}
    (step : ∀ {s t b}, R s t → P b → ∃ s' t', f s b = .ok s' ∧ g t b = .ok t' ∧ R s' t')
    {l : List β} (hl : ∀ b ∈ l, P b) {s : σ} {t : τ} (start : R s t) :
    ∃ s' t', l.foldlM f s = .ok s' ∧ l.foldlM g t = .ok t' ∧ R s' t' := by
  induction l generalizing s t with
  | nil => exact ⟨s, t, rfl, rfl, start⟩
  | cons b rest ih =>
    obtain ⟨s', t', first, second, next⟩ := step start (hl b List.mem_cons_self)
    obtain ⟨u, v, went, followed, last⟩ := ih (fun b hb => hl b (List.mem_cons_of_mem _ hb)) next
    refine ⟨u, v, ?_, ?_, last⟩
    · rw [List.foldlM_cons, first]
      exact went
    · rw [List.foldlM_cons, second]
      exact followed

section
variable {α : Type} [Resource α]

/-! ## One history, told twice -/

def StoreEvent.Regular (event : StoreEvent α) : Prop :=
  ∀ a ∈ event.object?, (Resource.metadata a).Regular

instance (event : StoreEvent α) : Decidable event.Regular :=
  inferInstanceAs (Decidable (∀ a ∈ event.object?, _))

/-- Deletes an object by its namespace and name. -/
def Cache.withdraw (c : Cache α) (a : α) : Cache α :=
  c.delete (Resource.metadata a).ns ((Resource.metadata a).name.getD "")

/-- Deletes all objects, one after the other. -/
def Cache.clear (c : Cache α) : Cache α := c.objects.foldl withdraw c

/-- A cache that is filled by hand, with the objects of the relist that is under way. -/
structure Mirror (α : Type) where
  held : Cache α
  listed : List α

namespace Mirror

def empty : Mirror α := ⟨Cache.empty .folding, []⟩

def step (m : Mirror α) : StoreEvent α → Except Error (Mirror α)
  | .apply a => (m.held.apply a).map fun c => { m with held := c }
  | .delete a => .ok { m with held := m.held.withdraw a }
  | .relist => .ok { m with listed := [] }
  | .relisted a => .ok { m with listed := m.listed ++ [a] }
  | .relistDone => (m.listed.foldlM Cache.apply m.held.clear).map fun c => ⟨c, []⟩

def run (m : Mirror α) (events : List (StoreEvent α)) : Except Error (Mirror α) :=
  events.foldlM step m

end Mirror

def Store.run (s : Store α) (events : List (StoreEvent α)) : Except Error (Store α) :=
  events.foldlM step s

/-! ## The caches of the two -/

namespace Cache

variable {c e : Cache α}

theorem withdraw_eq (c : Cache α) {a : α} (h : (Resource.metadata a).Regular) :
    c.withdraw a = c.remove (Ledger.key a) := by
  rw [withdraw, delete, c.keying.place_of_ne h.ns, Ledger.key]

theorem forget_eq (c : Cache α) {a : α} (h : (Resource.metadata a).Regular) :
    c.forget a = c.remove (Ledger.key a) := by
  rw [forget, keyOf, h.place?, Ledger.key]

/-- What deleting some of the objects leaves has none of their keys. -/
theorem mem_withdrawn {l : List α} (regular : ∀ a ∈ l, (Resource.metadata a).Regular) {b : α}
    (hb : b ∈ (l.foldl withdraw c).objects) : b ∈ c.objects ∧ b ∉ l := by
  induction l generalizing c with
  | nil => exact ⟨hb, by simp⟩
  | cons a rest ih =>
    have ha := regular a List.mem_cons_self
    obtain ⟨left, others⟩ := ih (fun a ha => regular a (List.mem_cons_of_mem _ ha)) hb
    rw [c.withdraw_eq ha] at left
    obtain ⟨kept, ne⟩ := List.mem_filter.mp left
    refine ⟨kept, fun hm => ?_⟩
    rcases List.mem_cons.mp hm with rfl | hm
    · simp [keyOf, ha.place?, Ledger.key] at ne
    · exact others hm

theorem clear_eq (regular : ∀ a ∈ c.objects, (Resource.metadata a).Regular) :
    c.clear = empty c.keying := by
  have keying (l : List α) : ∀ d : Cache α, (l.foldl withdraw d).keying = d.keying := by
    induction l with
    | nil => exact fun _ => rfl
    | cons a rest ih => exact fun d => ih (d.withdraw a)
  have objects : c.clear.objects = [] := by
    refine List.eq_nil_iff_forall_not_mem.mpr fun b hb => ?_
    obtain ⟨there, gone⟩ := mem_withdrawn regular hb
    exact gone there
  calc c.clear = ⟨c.clear.keying, c.clear.objects⟩ := rfl
    _ = empty c.keying := by rw [objects, clear, keying, empty]

/-- An exact and a folding cache with the same objects, all of which both key alike. -/
structure Twins (c e : Cache α) : Prop where
  exact : c.keying = .exact
  folding : e.keying = .folding
  objects : c.objects = e.objects
  regular : ∀ a ∈ c.objects, (Resource.metadata a).Regular

namespace Twins

theorem empty : Twins (Cache.empty (α := α) .exact) (Cache.empty .folding) :=
  ⟨rfl, rfl, rfl, by simp [Cache.empty]⟩

variable (h : Twins c e)

include h

theorem keyOf_eq {a : α} (ha : a ∈ c.objects) : c.keyOf a = e.keyOf a := by
  rw [keyOf, keyOf, (h.regular a ha).place?, (h.regular a ha).place?]

theorem remove (key : Option String × String) : Twins (c.remove key) (e.remove key) where
  exact := h.exact
  folding := h.folding
  objects := by
    rw [Cache.remove, Cache.remove, ← h.objects]
    exact List.filter_congr fun a ha => by rw [h.keyOf_eq ha]
  regular a ha := h.regular a (List.mem_of_mem_filter ha)

theorem apply {a : α} (ha : (Resource.metadata a).Regular) :
    ∃ d f, c.apply a = .ok d ∧ e.apply a = .ok f ∧ Twins d f := by
  have key (x : Cache α) : x.keyOf a = some (Ledger.key a) := ha.place? x.keying
  have rest := h.remove (Ledger.key a)
  refine ⟨_, _, apply_eq_ok_iff.mpr ⟨_, key c, rfl⟩, apply_eq_ok_iff.mpr ⟨_, key e, rfl⟩,
    h.exact, h.folding, ?_, fun b hb => ?_⟩
  · rw [rest.objects]
  · rcases List.mem_cons.mp ((insertInOrder_perm a _).mem_iff.mp hb) with rfl | hb
    · exact ha
    · exact rest.regular b hb

theorem fill {l : List α} (hl : ∀ a ∈ l, (Resource.metadata a).Regular) :
    ∃ d f, l.foldlM Cache.apply c = .ok d ∧ l.foldlM Cache.apply e = .ok f ∧ Twins d f :=
  foldlM_alike (fun alike regular => alike.apply regular) hl h

theorem under?_eq (key : Option String × String) : c.under? key = e.under? key := by
  rw [under?, under?, ← h.objects]
  exact List.find?_congr fun a ha => by rw [h.keyOf_eq ha]

end Twins

/-- What the first answers, a store, from what the second does: a look in a namespace with
no object of the name finds the one that is in none. -/
structure Serves (c e : Cache α) : Prop where
  listings : ∀ ns selector, c.list ns selector = e.list ns selector
  outside : ∀ name, c.get? none name = e.get? none name
  inside : ∀ ns name, ns ≠ "" →
    c.get? (some ns) name = (e.get? (some ns) name <|> e.get? none name)

theorem Twins.serves (h : Twins c e) : Serves c e where
  listings ns selector := by rw [list, list, h.objects]
  outside name := by rw [get?_none, get?_none, h.under?_eq]
  inside ns name ne := by
    have place : Keying.folding.place (some ns) = some ns := Keying.place_some ne
    rw [get?_none]
    simp only [get?, h.exact, h.folding, h.under?_eq, place]

/-- With nothing outside all namespaces, no look in one falls back. -/
theorem Twins.readAlike (h : Twins c e)
    (housed : ∀ a ∈ c.objects, (Resource.metadata a).ns ≠ none) : ReadAlike c e where
  objects := h.objects
  looks ns name ne := by
    have lone : c.get? none name = none := by
      rw [get?_none]
      refine List.find?_eq_none.mpr fun a ha => ?_
      rw [keyOf, (h.regular a ha).place?]
      simp [housed a ha]
    cases ns with
    | none => exact h.serves.outside name
    | some ns =>
      rw [h.serves.inside ns name (by simpa using ne), ← h.serves.outside, lone]
      simp

end Cache

/-! ## One step and a whole history -/

/-- The cache filled by hand holds what the store holds, and what is listed so far is what the
store has collected. -/
structure Mirror.Of (m : Mirror α) (s : Store α) : Prop where
  held : s.held.Twins m.held
  listed : ∀ a ∈ m.listed, (Resource.metadata a).Regular
  collected : m.listed.foldlM Cache.apply (Cache.empty .exact) = .ok s.collected

namespace Mirror

theorem empty_of : (empty : Mirror α).Of (Store.empty .exact) :=
  ⟨Cache.Twins.empty, by simp [empty], rfl⟩

variable {m : Mirror α} {s : Store α} (h : m.Of s)

include h

theorem Of.step {event : StoreEvent α} (regular : event.Regular) :
    ∃ t n, s.step event = .ok t ∧ m.step event = .ok n ∧ n.Of t := by
  obtain ⟨collected, gathered, collects, gathers, alike⟩ := Cache.Twins.empty.fill h.listed
  cases h.collected.symm.trans collects
  cases event with
  | apply a =>
    obtain ⟨c, e, applied, mirrored, held⟩ := h.held.apply (regular a rfl)
    exact ⟨_, _, congrArg (Except.map _) applied, congrArg (Except.map _) mirrored,
      held, h.listed, h.collected⟩
  | delete a =>
    have ha := regular a rfl
    refine ⟨_, _, rfl, rfl, ?_, h.listed, h.collected⟩
    change (s.held.forget a).Twins (m.held.withdraw a)
    rw [Cache.forget_eq _ ha, Cache.withdraw_eq _ ha]
    exact h.held.remove _
  | relist =>
    refine ⟨_, _, rfl, rfl, h.held, by simp, ?_⟩
    rw [alike.exact]
    rfl
  | relisted a =>
    have ha := regular a rfl
    obtain ⟨c, e, applied, -, -⟩ := alike.apply ha
    refine ⟨_, _, congrArg (Except.map _) applied, rfl, h.held, fun b hb => ?_, ?_⟩
    · rcases List.mem_append.mp hb with hb | hb
      · exact h.listed b hb
      · rwa [List.mem_singleton.mp hb]
    · change (m.listed ++ [a]).foldlM Cache.apply (Cache.empty .exact) = .ok c
      rw [List.foldlM_append, h.collected]
      exact (congrArg (· >>= pure) applied).trans rfl
  | relistDone =>
    have cleared : m.held.clear = Cache.empty .folding := by
      rw [Cache.clear_eq (h.held.objects ▸ h.held.regular), h.held.folding]
    refine ⟨_, ⟨gathered, []⟩, rfl, ?_, alike, by simp, ?_⟩
    · rw [Mirror.step, cleared, gathers]
      rfl
    · rw [alike.exact]
      rfl

/-- A history of regular objects goes through on both sides, and leaves them alike. -/
theorem Of.run {events : List (StoreEvent α)} (regular : ∀ event ∈ events, event.Regular) :
    ∃ t n, s.run events = .ok t ∧ m.run events = .ok n ∧ n.Of t :=
  foldlM_alike (f := Store.step) (g := Mirror.step) (P := StoreEvent.Regular)
    (R := fun s m => Mirror.Of m s) (fun alike regular => alike.step regular) regular h

end Mirror

end

/-! ## Clusters -/

/-- What becomes of the objects of each kind. -/
structure Histories where
  nodes : List (StoreEvent Node)
  machines : List (StoreEvent Machine)
  machineSets : List (StoreEvent MachineSet)
  machineDeployments : List (StoreEvent MachineDeployment)

namespace Histories

/-- The cluster of the stores that are told the histories. -/
def stored (h : Histories) : Except Error Cluster := do
  let nodes ← (Store.empty .exact).run h.nodes
  let machines ← (Store.empty .exact).run h.machines
  let machineSets ← (Store.empty .exact).run h.machineSets
  let machineDeployments ← (Store.empty .exact).run h.machineDeployments
  return ⟨nodes.held, machines.held, machineSets.held, machineDeployments.held⟩

/-- The cluster of the caches that are filled by hand. -/
def mirrored (h : Histories) : Except Error Cluster := do
  let nodes ← Mirror.empty.run h.nodes
  let machines ← Mirror.empty.run h.machines
  let machineSets ← Mirror.empty.run h.machineSets
  let machineDeployments ← Mirror.empty.run h.machineDeployments
  return ⟨nodes.held, machines.held, machineSets.held, machineDeployments.held⟩

structure Regular (h : Histories) : Prop where
  nodes : ∀ event ∈ h.nodes, event.Regular
  machines : ∀ event ∈ h.machines, event.Regular
  machineSets : ∀ event ∈ h.machineSets, event.Regular
  machineDeployments : ∀ event ∈ h.machineDeployments, event.Regular

instance (h : Histories) : Decidable h.Regular :=
  decidable_of_iff ((∀ event ∈ h.nodes, event.Regular) ∧ (∀ event ∈ h.machines, event.Regular) ∧
      (∀ event ∈ h.machineSets, event.Regular) ∧ ∀ event ∈ h.machineDeployments, event.Regular)
    ⟨fun r => ⟨r.1, r.2.1, r.2.2.1, r.2.2.2⟩, fun r => ⟨r.1, r.2, r.3, r.4⟩⟩

end Histories

namespace Cluster

/-- Every object of the kinds that have namespaces is in one. -/
structure Housed (c : Cluster) : Prop where
  machines : ∀ m ∈ c.machines.objects, m.metadata.ns ≠ none
  machineSets : ∀ ms ∈ c.machineSets.objects, ms.metadata.ns ≠ none
  machineDeployments : ∀ md ∈ c.machineDeployments.objects, md.metadata.ns ≠ none

/-- Each cache of the first cluster serves what that of the second does. -/
structure Serves (c e : Cluster) : Prop where
  nodes : c.nodes.Serves e.nodes
  machines : c.machines.Serves e.machines
  machineSets : c.machineSets.Serves e.machineSets
  machineDeployments : c.machineDeployments.Serves e.machineDeployments

end Cluster

/-- Histories of regular objects end well on both backends, whatever has been told of them so
far. Listings are the same over both, and so are looks, but for what a store falls back to. With
the namespaced kinds in namespaces, so are all answers of the directory under any settings. -/
theorem Histories.served_alike (h : Histories) (regular : h.Regular) :
    ∃ c e, h.stored = .ok c ∧ h.mirrored = .ok e ∧ c.Serves e ∧
      (c.Housed → ∀ s : Settings,
        Directory.groups ⟨c, s⟩ = Directory.groups ⟨e, s⟩ ∧
        (∀ n, Directory.groupForNode ⟨c, s⟩ n = Directory.groupForNode ⟨e, s⟩ n) ∧
        (∀ id : GroupId, id.ns ≠ "" → Directory.lookup ⟨c, s⟩ id = Directory.lookup ⟨e, s⟩ id) ∧
        ∀ g : NodeGroup, g.summary c = g.summary e) := by
  obtain ⟨n, n', ranN, toldN, ofN⟩ := Mirror.empty_of.run regular.nodes
  obtain ⟨m, m', ranM, toldM, ofM⟩ := Mirror.empty_of.run regular.machines
  obtain ⟨ms, ms', ranMs, toldMs, ofMs⟩ := Mirror.empty_of.run regular.machineSets
  obtain ⟨md, md', ranMd, toldMd, ofMd⟩ := Mirror.empty_of.run regular.machineDeployments
  refine ⟨⟨n.held, m.held, ms.held, md.held⟩, ⟨n'.held, m'.held, ms'.held, md'.held⟩, ?_, ?_,
    ⟨ofN.held.serves, ofM.held.serves, ofMs.held.serves, ofMd.held.serves⟩, fun housed s => ?_⟩
  · rw [stored, ranN, ranM, ranMs, ranMd]
    rfl
  · rw [mirrored, toldN, toldM, toldMs, toldMd]
    rfl
  · have alike : Cluster.ReadAlike ⟨n.held, m.held, ms.held, md.held⟩
        ⟨n'.held, m'.held, ms'.held, md'.held⟩ :=
      ⟨ofN.held.objects, ofN.held.serves.outside, ofM.held.readAlike housed.machines,
        ofMs.held.readAlike housed.machineSets, ofMd.held.readAlike housed.machineDeployments⟩
    exact ⟨Directory.groups_of_readAlike alike, Directory.groupForNode_of_readAlike alike,
      fun _ => Directory.lookup_of_readAlike alike, alike.summary_eq⟩

namespace Lab

/-- How the small cluster came to be: its MachineSets by a relist after a first one was seen, and
a Machine was there that has gone. -/
def histories : Histories where
  nodes := [.apply nodeA]
  machines := [.apply partMachine, .delete partMachine, .apply soloMachine]
  machineSets := [.apply part, .relist, .relisted solo, .relistDone]
  machineDeployments := [.relist, .relisted fleet, .relistDone]

theorem histories_stored : histories.stored = .ok ⟨⟨.exact, [nodeA]⟩, ⟨.exact, [soloMachine]⟩,
    ⟨.exact, [solo]⟩, ⟨.exact, [fleet]⟩⟩ := rfl

theorem histories_mirrored : histories.mirrored = .ok ⟨⟨.folding, [nodeA]⟩,
    ⟨.folding, [soloMachine]⟩, ⟨.folding, [solo]⟩, ⟨.folding, [fleet]⟩⟩ := rfl

theorem histories_served : histories.Regular ∧ ∃ c e,
    histories.stored = .ok c ∧ histories.mirrored = .ok e ∧ c.Housed ∧
      c.machineSets.get? (some "lab") "solo" = some solo ∧
      e.machineSets.get? (some "lab") "solo" = some solo ∧
      Directory.groups ⟨c, Settings.default⟩ = Directory.groups ⟨e, Settings.default⟩ := by
  have regular : histories.Regular := by decide
  obtain ⟨c, e, stored, mirrored, -, answers⟩ := histories.served_alike regular
  cases histories_stored.symm.trans stored
  cases histories_mirrored.symm.trans mirrored
  have housed : Cluster.Housed ⟨⟨.exact, [nodeA]⟩, ⟨.exact, [soloMachine]⟩,
      ⟨.exact, [solo]⟩, ⟨.exact, [fleet]⟩⟩ := ⟨by decide, by decide, by decide⟩
  exact ⟨regular, _, _, stored, mirrored, housed, rfl, rfl, (answers housed Settings.default).1⟩

/-- The two do part: the store finds a Node under a namespace, which Nodes do not have. -/
theorem nodeA_found_under_lab : histories.Regular ∧ ∃ c e,
    histories.stored = .ok c ∧ histories.mirrored = .ok e ∧
      c.nodes.get? (some "lab") "node-a" = some nodeA ∧
      e.nodes.get? (some "lab") "node-a" = none :=
  ⟨by decide, _, _, histories_stored, histories_mirrored, rfl, rfl⟩

end Lab
end NodeGroups
