import NodeGroups.Proofs.Correlation
import NodeGroups.Proofs.Enumeration
import NodeGroups.Proofs.Machines

/-!
# Nodes and Machines that belong together

A signal that is there links a Node and a Machine (`Linked`). Where all links lie in one
matching of Nodes and Machines, one to one, and no provider ID is given twice, each walk from a
Node to a Machine or back ends at the partner, whichever of the signals are missing. Then no
member of a group is counted twice, and a Node that is a member of a group is in no other.
-/
namespace NodeGroups

/-- A signal that is present on both objects, or on one of them about the other. -/
inductive Linked (n : Node) (m : Machine) : Prop where
  | providerId {id : String} (node : n.providerId? = some id) (machine : m.providerId? = some id)
  | reference {name : String} (machine : m.nodeName? = some name)
      (node : n.metadata.name = some name)
  | annotated {key : ObjectKey} (node : n.machineKey? = .ok (some key))
      (machine : m.metadata.key = .ok key)

/-- One provider ID is on both. -/
def Node.SharesId (n : Node) (m : Machine) : Prop :=
  ∃ id, n.providerId? = some id ∧ m.providerId? = some id

/-- The annotation of the Node has the key of the Machine. -/
def Node.Names (n : Node) (m : Machine) : Prop :=
  ∃ key, n.machineKey? = .ok (some key) ∧ m.metadata.key = .ok key

/-- The Machine, itself without a provider ID, refers to the Node. -/
def Machine.RefersTo (m : Machine) (n : Node) : Prop :=
  m.providerId? = none ∧ ∃ name, m.nodeName? = some name ∧ n.metadata.name = some name

section
variable {n : Node} {m : Machine}

theorem Node.SharesId.linked (h : n.SharesId m) : Linked n m := by
  obtain ⟨id, node, machine⟩ := h
  exact .providerId node machine

theorem Node.Names.linked (h : n.Names m) : Linked n m := by
  obtain ⟨key, node, machine⟩ := h
  exact .annotated node machine

theorem Machine.RefersTo.linked (h : m.RefersTo n) : Linked n m := by
  obtain ⟨-, name, machine, node⟩ := h
  exact .reference machine node

end

theorem linked_iff {n : Node} {m : Machine} : Linked n m ↔
    (n.providerId? ≠ none ∧ n.providerId? = m.providerId?) ∨
    (m.nodeName? ≠ none ∧ m.nodeName? = n.metadata.name) ∨
    ∃ key ∈ n.machineKey?.toOption.join, m.metadata.key.toOption = some key := by
  constructor
  · rintro (⟨node, machine⟩ | ⟨machine, node⟩ | ⟨node, machine⟩)
    · exact Or.inl ⟨by simp [node], node.trans machine.symm⟩
    · exact Or.inr (Or.inl ⟨by simp [machine], machine.trans node.symm⟩)
    · exact Or.inr (Or.inr ⟨_, by rw [node]; rfl, by rw [machine]; rfl⟩)
  · rintro (⟨there, same⟩ | ⟨there, same⟩ | ⟨key, node, machine⟩)
    · obtain ⟨id, node⟩ := Option.ne_none_iff_exists'.mp there
      exact .providerId node (same.symm.trans node)
    · obtain ⟨name, machine⟩ := Option.ne_none_iff_exists'.mp there
      exact .reference machine (same.symm.trans machine)
    · cases hn : n.machineKey? with
      | error e => simp [hn, Except.toOption] at node
      | ok found =>
        cases hm : m.metadata.key with
        | error e => simp [hm, Except.toOption] at machine
        | ok own =>
          rw [hn] at node
          rw [hm] at machine
          cases found with
          | none => cases node
          | some other =>
            cases node
            cases machine
            exact .annotated hn hm

instance (n : Node) (m : Machine) : Decidable (Linked n m) := decidable_of_iff _ linked_iff.symm

/-- No two of the objects have one identifier; any number may have none. -/
def DistinctBy {α : Type} (l : List α) (ident : α → Option String) : Prop :=
  ∀ a ∈ l, ∀ b ∈ l, ∀ id, ident a = some id → ident b = some id → a = b

instance {α : Type} [DecidableEq α] (l : List α) (ident : α → Option String) :
    Decidable (DistinctBy l ident) :=
  decidable_of_iff (∀ a ∈ l, ∀ b ∈ l, ident a ≠ none → ident a = ident b → a = b) <| by
    constructor
    · intro h a ha b hb id ida idb
      exact h a ha b hb (by simp [ida]) (ida.trans idb.symm)
    · intro h a ha b hb there same
      obtain ⟨id, ida⟩ := Option.ne_none_iff_exists'.mp there
      exact h a ha b hb id ida (same.symm.trans ida)

/-- What a search by identifier finds has the identifier. -/
theorem mem_of_find?_ident {α : Type} {l : List α} {ident : α → Option String} {id : String}
    {a : α} (h : (l.find? fun b => ident b = some id) = some a) : a ∈ l ∧ ident a = some id :=
  ⟨List.mem_of_find?_eq_some h, by simpa using List.find?_some h⟩

/-- A search by identifier finds the one object that has it. -/
theorem DistinctBy.find?_eq_some_iff {α : Type} {l : List α} {ident : α → Option String}
    (distinct : DistinctBy l ident) {id : String} {a : α} :
    (l.find? fun b => ident b = some id) = some a ↔ a ∈ l ∧ ident a = some id := by
  constructor
  · exact mem_of_find?_ident
  · rintro ⟨ha, own⟩
    have there : (l.find? fun b => ident b = some id).isSome :=
      List.find?_isSome.mpr ⟨a, ha, by simp [own]⟩
    obtain ⟨b, found⟩ := Option.isSome_iff_exists.mp there
    obtain ⟨hb, carried⟩ := mem_of_find?_ident found
    rw [found, distinct b hb a ha id carried own]

namespace Cluster

/-- Nodes are in no namespace. -/
def BareNodes (c : Cluster) : Prop := ∀ n ∈ c.nodes.objects, n.metadata.ns = none

instance (c : Cluster) : Decidable c.BareNodes :=
  inferInstanceAs (Decidable (∀ n ∈ c.nodes.objects, n.metadata.ns = none))

/-- No two Nodes have one provider ID, and no two Machines. -/
structure DistinctIds (c : Cluster) : Prop where
  nodes : DistinctBy c.nodes.objects Node.providerId?
  machines : DistinctBy c.machines.objects Machine.providerId?

instance (c : Cluster) : Decidable c.DistinctIds :=
  decidable_of_iff (DistinctBy c.nodes.objects Node.providerId? ∧
    DistinctBy c.machines.objects Machine.providerId?) ⟨fun h => ⟨h.1, h.2⟩, fun h => ⟨h.1, h.2⟩⟩

/-- A pairing of Nodes and Machines, one to one, that has every linked pair. -/
structure Matching (c : Cluster) (L : Node → Machine → Prop) : Prop where
  linked : ∀ n ∈ c.nodes.objects, ∀ m ∈ c.machines.objects, Linked n m → L n m
  oneMachine : ∀ {n m k}, L n m → L n k → m = k
  oneNode : ∀ {n k m}, L n m → L k m → n = k

theorem Matching.of_pairs {c : Cluster} {pairs : List (Node × Machine)}
    (linked : ∀ n ∈ c.nodes.objects, ∀ m ∈ c.machines.objects, Linked n m → (n, m) ∈ pairs)
    (nodes : (pairs.map Prod.fst).Nodup) (machines : (pairs.map Prod.snd).Nodup) :
    c.Matching fun n m => (n, m) ∈ pairs where
  linked := linked
  oneMachine hm hk := congrArg Prod.snd (List.inj_on_of_nodup_map nodes hm hk rfl)
  oneNode hn hk := congrArg Prod.fst (List.inj_on_of_nodup_map machines hn hk rfl)

/-- Of the cached Machines a Node is linked to one at most. -/
theorem Matching.eq_of_linked {c : Cluster} {L : Node → Machine → Prop} (matching : c.Matching L)
    {n : Node} (hn : n ∈ c.nodes.objects) {m k : Machine} (hm : m ∈ c.machines.objects)
    (hk : k ∈ c.machines.objects) (linkm : Linked n m) (linkk : Linked n k) : m = k :=
  matching.oneMachine (matching.linked n hn m hm linkm) (matching.linked n hn k hk linkk)

section
variable {c : Cluster}

theorem nodeByProviderId?_eq_some {id : String} {n : Node}
    (h : c.nodeByProviderId? id = some n) :
    n ∈ c.nodes.objects ∧ n.providerId? = some id := by
  rw [nodeByProviderId?] at h
  split at h
  · cases h
  · rw [Cache.within_none] at h
    exact mem_of_find?_ident h

theorem nodeByName?_eq_some_iff (reached : c.Reached) (bare : c.BareNodes) {name : String}
    {n : Node} : c.nodeByName? name = some n ↔
      n ∈ c.nodes.objects ∧ n.metadata.name = some name :=
  reached.nodes.keyed.get?_name_eq_some_iff bare

theorem eq_of_node_name (reached : c.Reached) (bare : c.BareNodes) {a b : Node}
    (ha : a ∈ c.nodes.objects) (hb : b ∈ c.nodes.objects) {name : String}
    (hna : a.metadata.name = some name) (hnb : b.metadata.name = some name) : a = b := by
  have founda := (nodeByName?_eq_some_iff reached bare).mpr ⟨ha, hna⟩
  have foundb := (nodeByName?_eq_some_iff reached bare).mpr ⟨hb, hnb⟩
  exact Option.some.inj (founda.symm.trans foundb)

/-- A cached Node is known by its name. -/
theorem exists_node_name (reached : c.Reached) {n : Node} (hn : n ∈ c.nodes.objects) :
    ∃ name, n.metadata.name = some name ∧ n.metadata.displayName = name := by
  obtain ⟨⟨ns, name⟩, hk⟩ := Option.ne_none_iff_exists'.mp (reached.nodes.keyed.hasKey n hn)
  have named : n.metadata.name = some name := (Cache.keyOf_eq_some hk).2
  exact ⟨name, named, Metadata.displayName_of_name named⟩

/-- A key that a text was read as leads to the placed Machine that has it. -/
theorem machineByKey?_eq_some_iff (reached : c.Reached) (placed : c.Placed) {key : ObjectKey}
    (filled : key.name ≠ "") {m : Machine} :
    c.machineByKey? key = some m ↔ m ∈ c.machines.objects ∧ m.metadata.key = .ok key := by
  by_cases hns : key.ns = ""
  · have nowhere : key.ns? = none := if_pos hns
    rw [machineByKey?, nowhere, reached.machines.keyed.get?_none_eq_some_iff]
    refine and_congr_right fun hm => ?_
    obtain ⟨ns, name, there, -, segment, -, own⟩ := (placed.machines m hm).key_eq_ok
    constructor
    · intro hk
      have place := (Cache.keyOf_eq_some hk).1
      change c.machines.keying.place m.metadata.ns = none at place
      rw [there, Keying.place_some segment.1] at place
      cases place
    · intro hk
      cases own.symm.trans hk
      exact absurd hns segment.1
  · have somewhere : key.ns? = some key.ns := if_neg hns
    rw [machineByKey?, somewhere]
    exact reached.machines.keyed.get?_eq_some_iff placed.direct.machines filled

theorem annotatedMachine?_eq_some_iff (reached : c.Reached) (placed : c.Placed) {n : Node}
    {m : Machine} : c.annotatedMachine? n = .ok (some m) ↔
      m ∈ c.machines.objects ∧ n.Names m := by
  rw [annotatedMachine?_leads_iff]
  constructor
  · rintro ⟨key, pointed, held⟩
    obtain ⟨hm, own⟩ := (machineByKey?_eq_some_iff reached placed pointed.1.1).mp held
    exact ⟨hm, key, Node.machineKey?_eq_some_iff.mpr pointed, own⟩
  · rintro ⟨hm, key, named, own⟩
    have pointed := Node.machineKey?_eq_some_iff.mp named
    exact ⟨key, pointed, (machineByKey?_eq_some_iff reached placed pointed.1.1).mpr ⟨hm, own⟩⟩

theorem carrier?_eq_some {n : Node} {m : Machine} (h : c.carrier? n = some m) :
    m ∈ c.machines.objects ∧ n.SharesId m := by
  obtain ⟨id, own, found⟩ := Option.bind_eq_some_iff.mp h
  rw [Cache.within_none] at found
  obtain ⟨hm, carried⟩ := mem_of_find?_ident found
  exact ⟨hm, id, own, carried⟩

theorem guide?_eq_some {n k : Node} (h : c.guide? n = some k) :
    k = n ∨ k ∈ c.nodes.objects ∧ ∃ id, n.providerId? = some id ∧ k.providerId? = some id := by
  rw [guide?] at h
  cases own : n.providerId? with
  | none =>
    rw [own] at h
    exact Or.inl (Option.some.inj h).symm
  | some id =>
    rw [own] at h
    obtain ⟨hk, same⟩ := nodeByProviderId?_eq_some h
    exact Or.inr ⟨hk, id, rfl, same⟩

/-- The ways to the Machine of a Node: its provider ID is on a Machine, or an annotation is
followed, which is the Node's own or that of a Node with its ID, or the ID leads nowhere. -/
theorem machineForNode?_cases (c : Cluster) (n : Node) :
    (∃ m ∈ c.machines.objects, n.SharesId m ∧ c.machineForNode? n = .ok (some m)) ∨
    (∃ k, (k = n ∨ k ∈ c.nodes.objects ∧ ∃ id, n.providerId? = some id ∧
        k.providerId? = some id) ∧ c.machineForNode? n = c.annotatedMachine? k) ∨
    c.machineForNode? n = .ok none := by
  rw [machineForNode?_eq]
  cases carried : c.carrier? n with
  | some m =>
    obtain ⟨hm, shared⟩ := carrier?_eq_some carried
    exact Or.inl ⟨m, hm, shared, rfl⟩
  | none =>
    cases followed : c.guide? n with
    | none => exact Or.inr (Or.inr rfl)
    | some k => exact Or.inr (Or.inl ⟨k, guide?_eq_some followed, rfl⟩)

/-- A Machine that a Node leads to is cached. -/
theorem mem_of_machineForNode? {n : Node} {m : Machine}
    (h : c.machineForNode? n = .ok (some m)) : m ∈ c.machines.objects := by
  rcases c.machineForNode?_cases n with ⟨k, hk, -, walked⟩ | ⟨k, -, walked⟩ | walked
  · cases h.symm.trans walked
    exact hk
  · obtain ⟨key, -, held⟩ := annotatedMachine?_leads_iff.mp (walked.symm.trans h)
    exact Cache.mem_of_get? held
  · cases h.symm.trans walked

/-- A Node leads to a Machine that has its provider ID or that its own annotation names. -/
theorem machineForNode?_eq_some (reached : c.Reached) (placed : c.Placed)
    (distinct : c.DistinctIds) {n : Node} (hn : n ∈ c.nodes.objects) {m : Machine}
    (h : c.machineForNode? n = .ok (some m)) :
    m ∈ c.machines.objects ∧ (n.SharesId m ∨ n.Names m) := by
  rcases c.machineForNode?_cases n with ⟨k, hk, shared, walked⟩ | ⟨k, followed, walked⟩ | walked
  · cases h.symm.trans walked
    exact ⟨hk, Or.inl shared⟩
  · -- The annotation that is followed is the Node's own, as no other one has its ID.
    have same : k = n := by
      rcases followed with same | ⟨hk, id, own, also⟩
      · exact same
      · exact distinct.nodes k hk n hn id also own
    subst same
    obtain ⟨hm, named⟩ := (annotatedMachine?_eq_some_iff reached placed).mp (walked.symm.trans h)
    exact ⟨hm, Or.inr named⟩
  · cases h.symm.trans walked

theorem nodeForMachine?_eq_some (reached : c.Reached) (bare : c.BareNodes) {m : Machine}
    {n : Node} (h : c.nodeForMachine? m = some n) :
    n ∈ c.nodes.objects ∧ (n.SharesId m ∨ m.RefersTo n) := by
  rw [nodeForMachine?] at h
  split at h
  · next id own =>
    obtain ⟨hn, same⟩ := nodeByProviderId?_eq_some h
    exact ⟨hn, Or.inl ⟨id, same, own⟩⟩
  · next without =>
    obtain ⟨name, named, found⟩ := Option.bind_eq_some_iff.mp h
    obtain ⟨hn, own⟩ := (nodeByName?_eq_some_iff reached bare).mp found
    exact ⟨hn, Or.inr ⟨without, name, named, own⟩⟩

/-- A look for a name finds a cached Node that has it. -/
theorem nodeByName?_eq_some (reached : c.Reached) {name : String} {n : Node}
    (h : c.nodeByName? name = some n) : n ∈ c.nodes.objects ∧ n.metadata.name = some name := by
  obtain ⟨hn, key⟩ := reached.nodes.keyed.get?_none_eq_some_iff.mp h
  exact ⟨hn, (Cache.keyOf_eq_some key).2⟩

/-- The member of a Machine is the one that `nodeForMachine?` tells of, over whichever signal that
finds the Node. -/
theorem instanceOf?_eq (reached : c.Reached) (m : Machine) : c.instanceOf? m =
    (m.providerId?.or ((c.nodeForMachine? m).bind Node.providerId?)).map fun id =>
      ⟨id, (c.nodeForMachine? m).map fun n => n.metadata.displayName⟩ := by
  rw [instanceOf?, nodeForMachine?]
  cases m.providerId? with
  | some id => rfl
  | none =>
    cases m.nodeName? with
    | none => rfl
    | some name =>
      cases found : c.nodeByName? name with
      | none => simp [found]
      | some n =>
        have shown : n.metadata.displayName = name :=
          Metadata.displayName_of_name (nodeByName?_eq_some reached found).2
        simp [found, shown]

theorem instanceOf?_eq_some_iff (reached : c.Reached) {m : Machine} {i : Instance} :
    c.instanceOf? m = some i ↔
      i.nodeName = (c.nodeForMachine? m).map (fun n => n.metadata.displayName) ∧
        (m.providerId? = some i.id ∨ m.providerId? = none ∧
          ∃ n, c.nodeForMachine? m = some n ∧ n.providerId? = some i.id) := by
  obtain ⟨id, nodeName⟩ := i
  rw [instanceOf?_eq reached, Option.map_eq_some_iff]
  simp only [Instance.mk.injEq, Option.or_eq_some_iff, Option.bind_eq_some_iff]
  constructor
  · rintro ⟨own, carried, rfl, rfl⟩
    exact ⟨rfl, carried⟩
  · rintro ⟨rfl, carried⟩
    exact ⟨id, carried, rfl, rfl⟩

end

section
variable {c : Cluster} {L : Node → Machine → Prop} (reached : c.Reached) (placed : c.Placed)
  (bare : c.BareNodes) (distinct : c.DistinctIds) (matching : c.Matching L)

include reached placed distinct matching in
theorem machineForNode?_matched {n : Node} (hn : n ∈ c.nodes.objects) {m : Machine}
    (h : c.machineForNode? n = .ok (some m)) : L n m := by
  obtain ⟨hm, shared | named⟩ := machineForNode?_eq_some reached placed distinct hn h
  · exact matching.linked n hn m hm shared.linked
  · exact matching.linked n hn m hm named.linked

include reached bare matching in
theorem nodeForMachine?_matched {m : Machine} (hm : m ∈ c.machines.objects) {n : Node}
    (h : c.nodeForMachine? m = some n) : L n m := by
  obtain ⟨hn, shared | refers⟩ := nodeForMachine?_eq_some reached bare h
  · exact matching.linked n hn m hm shared.linked
  · exact matching.linked n hn m hm refers.linked

include reached bare matching in
/-- The Node that a member names is the partner of its Machine. -/
theorem partner_of_instance {m : Machine} (hm : m ∈ c.machines.objects) {i : Instance}
    (h : c.instanceOf? m = some i) {name : String} (named : i.nodeName = some name) :
    ∃ n ∈ c.nodes.objects, n.metadata.name = some name ∧ L n m := by
  have shown := ((instanceOf?_eq_some_iff reached).mp h).1
  obtain ⟨n, found, display⟩ := Option.map_eq_some_iff.mp (shown.symm.trans named)
  have hn := (nodeForMachine?_eq_some reached bare found).1
  obtain ⟨own, hown, same⟩ := exists_node_name reached hn
  have one : own = name := same.symm.trans display
  exact ⟨n, hn, one ▸ hown, nodeForMachine?_matched reached bare matching hm found⟩

include reached bare matching in
/-- The provider ID of a member is the one of its Machine or of the partner. -/
theorem carrier_of_instance {m : Machine} (hm : m ∈ c.machines.objects) {i : Instance}
    (h : c.instanceOf? m = some i) : m.providerId? = some i.id ∨
      ∃ n ∈ c.nodes.objects, n.providerId? = some i.id ∧ L n m := by
  rcases ((instanceOf?_eq_some_iff reached).mp h).2 with own | ⟨-, n, found, carried⟩
  · exact Or.inl own
  · have hn := (nodeForMachine?_eq_some reached bare found).1
    exact Or.inr ⟨n, hn, carried, nodeForMachine?_matched reached bare matching hm found⟩

include reached bare distinct matching in
theorem eq_of_instance_id {m k : Machine} (hm : m ∈ c.machines.objects)
    (hk : k ∈ c.machines.objects) {i j : Instance} (hi : c.instanceOf? m = some i)
    (hj : c.instanceOf? k = some j) (same : i.id = j.id) : m = k := by
  have carrierm := carrier_of_instance reached bare matching hm hi
  have carrierk := carrier_of_instance reached bare matching hk hj
  rw [same] at carrierm
  rcases carrierm with ownm | ⟨a, ha, carrieda, pairm⟩
  · rcases carrierk with ownk | ⟨b, hb, carriedb, pairk⟩
    · exact distinct.machines m hm k hk _ ownm ownk
    -- One Machine has the ID itself, and with it the Node that gives the ID to the other one.
    · have pairm := matching.linked b hb m hm (.providerId carriedb ownm)
      exact matching.oneMachine pairm pairk
  · rcases carrierk with ownk | ⟨b, hb, carriedb, pairk⟩
    · have pairk := matching.linked a ha k hk (.providerId carrieda ownk)
      exact matching.oneMachine pairm pairk
    · cases distinct.nodes a ha b hb _ carrieda carriedb
      exact matching.oneMachine pairm pairk

include reached bare matching in
theorem eq_of_instance_name {m k : Machine} (hm : m ∈ c.machines.objects)
    (hk : k ∈ c.machines.objects) {i j : Instance} (hi : c.instanceOf? m = some i)
    (hj : c.instanceOf? k = some j) {name : String} (namei : i.nodeName = some name)
    (namej : j.nodeName = some name) : m = k := by
  obtain ⟨a, ha, hna, pairm⟩ := partner_of_instance reached bare matching hm hi namei
  obtain ⟨b, hb, hnb, pairk⟩ := partner_of_instance reached bare matching hk hj namej
  cases eq_of_node_name reached bare ha hb hna hnb
  exact matching.oneMachine pairm pairk

end

end Cluster

namespace Directory

/-- The way that leads from a Node to its group. -/
theorem groupForNode_eq_some_iff {d : Directory} {n : Node} {g : NodeGroup} :
    d.groupForNode n = .ok (some g) ↔ ∃ m, d.cluster.machineForNode? n = .ok (some m) ∧
      d.settings.inScope (m.metadata.ns.getD "") = true ∧ d.cluster.LeadsTo m g.root ∧
      g.root.group? = .ok (some g) := by
  constructor
  · intro h
    rw [groupForNode] at h
    split at h
    · cases h
    · cases h
    · next m found =>
      split at h
      · next visible =>
        split at h
        · cases h
        · cases h
        · next ms owner =>
          split at h
          · cases h
          · next root above =>
            split at h
            · next grouped =>
              cases h
              obtain ⟨id, b, -, -, rfl⟩ := Root.group?_eq_some_iff.mp grouped
              exact ⟨m, found, visible, ⟨ms, owner, above⟩, grouped⟩
            · split at h
              · cases h
              · cases h
      · cases h
  · rintro ⟨m, found, visible, ⟨ms, owner, above⟩, grouped⟩
    rw [groupForNode, found]
    simp only [if_pos visible, owner, above, grouped]

theorem groupForNode_of_hidden {d : Directory} {n : Node} {m : Machine}
    (walked : d.cluster.machineForNode? n = .ok (some m))
    (hidden : ¬ d.settings.inScope (m.metadata.ns.getD "") = true) :
    d.groupForNode n = .ok none := by
  rw [groupForNode, walked]
  simp only [if_neg hidden]

theorem flatMap_members (c : Cluster) (gs : List NodeGroup) :
    gs.flatMap (fun g => g.members c) =
      (gs.flatMap fun g => g.machines c).filterMap c.instanceOf? := by
  rw [List.filterMap_flatMap]
  rfl

section
variable {d : Directory} {L : Node → Machine → Prop} (reached : d.cluster.Reached)
  (placed : d.cluster.Placed) (bare : d.cluster.BareNodes) (distinct : d.cluster.DistinctIds)
  (matching : d.cluster.Matching L) {gs : List NodeGroup} (h : d.groups = .ok gs)

include reached placed h in
theorem cached_of_listed {m : Machine} (hm : m ∈ gs.flatMap fun g => g.machines d.cluster) :
    m ∈ d.cluster.machines.objects := by
  obtain ⟨g, hg, hm⟩ := List.mem_flatMap.mp hm
  exact cached_of_mem_machines reached placed h hg hm

include reached placed bare distinct matching h in
theorem member_ids_nodup :
    ((gs.flatMap fun g => g.members d.cluster).map Instance.id).Nodup := by
  rw [flatMap_members, List.map_filterMap]
  refine nodup_filterMap_of_inj (groups_machines_nodup reached placed h) ?_
  intro m hm k hk id first second
  obtain ⟨i, hi, idi⟩ := Option.map_eq_some_iff.mp first
  obtain ⟨j, hj, idj⟩ := Option.map_eq_some_iff.mp second
  exact Cluster.eq_of_instance_id reached bare distinct matching
    (cached_of_listed reached placed h hm) (cached_of_listed reached placed h hk) hi hj
    (idi.trans idj.symm)

include reached placed bare matching h in
theorem member_names_nodup :
    ((gs.flatMap fun g => g.members d.cluster).filterMap Instance.nodeName).Nodup := by
  rw [flatMap_members, List.filterMap_filterMap]
  refine nodup_filterMap_of_inj (groups_machines_nodup reached placed h) ?_
  intro m hm k hk name first second
  obtain ⟨i, hi, namei⟩ := Option.bind_eq_some_iff.mp first
  obtain ⟨j, hj, namej⟩ := Option.bind_eq_some_iff.mp second
  exact Cluster.eq_of_instance_name reached bare matching
    (cached_of_listed reached placed h hm) (cached_of_listed reached placed h hk) hi hj
    namei namej

include reached placed bare distinct matching h in
/-- A Node that is named as a member of a listed group has that group or none. -/
theorem group_of_member {g : NodeGroup} (hg : g ∈ gs) {i : Instance}
    (hi : i ∈ g.members d.cluster) {n : Node} (hn : n ∈ d.cluster.nodes.objects)
    {name : String} (own : n.metadata.name = some name) (named : i.nodeName = some name)
    {other : NodeGroup} (found : d.groupForNode n = .ok (some other)) : other = g := by
  obtain ⟨m, hm, made⟩ := List.mem_filterMap.mp hi
  obtain ⟨cached, up⟩ := (mem_machines_of_groups reached placed h hg).mp hm
  obtain ⟨k, hk, hname, pair⟩ :=
    Cluster.partner_of_instance reached bare matching cached made named
  cases Cluster.eq_of_node_name reached bare hn hk own hname
  obtain ⟨machine, walked, -, above, grouped⟩ := groupForNode_eq_some_iff.mp found
  have partner := Cluster.machineForNode?_matched reached placed distinct matching hn walked
  cases matching.oneMachine partner pair
  have listed := ((mem_groups_iff h).mp hg).2.2
  rw [up.unique above] at listed
  cases listed.symm.trans grouped
  rfl

end

/-- Whichever of the signals are missing, nothing is attributed wrongly. -/
theorem no_misattribution (d : Directory) (L : Node → Machine → Prop)
    (reached : d.cluster.Reached) (placed : d.cluster.Placed) (bare : d.cluster.BareNodes)
    (distinct : d.cluster.DistinctIds) (matching : d.cluster.Matching L) :
    (∀ n ∈ d.cluster.nodes.objects, ∀ m,
      d.cluster.machineForNode? n = .ok (some m) → L n m) ∧
    (∀ m ∈ d.cluster.machines.objects, ∀ n, d.cluster.nodeForMachine? m = some n → L n m) ∧
    ∀ gs, d.groups = .ok gs →
      ((gs.flatMap fun g => g.members d.cluster).map Instance.id).Nodup ∧
      ((gs.flatMap fun g => g.members d.cluster).filterMap Instance.nodeName).Nodup ∧
      ∀ g ∈ gs, ∀ i ∈ g.members d.cluster, ∀ n ∈ d.cluster.nodes.objects, ∀ name,
        n.metadata.name = some name → i.nodeName = some name →
        ∀ other, d.groupForNode n = .ok (some other) → other = g := by
  refine ⟨?_, ?_, fun gs h => ⟨?_, ?_, ?_⟩⟩
  · intro n hn m walked
    exact Cluster.machineForNode?_matched reached placed distinct matching hn walked
  · intro m hm n walked
    exact Cluster.nodeForMachine?_matched reached bare matching hm walked
  · exact member_ids_nodup reached placed bare distinct matching h
  · exact member_names_nodup reached placed bare matching h
  · intro g hg i hi n hn name own named other found
    exact group_of_member reached placed bare distinct matching h hg hi hn own named found

end Directory

namespace Lab

/-- One Machine of the small cluster has its Node's provider ID, the other one refers to it. -/
def pairs : List (Node × Machine) := [(nodeA, soloMachine), (nodeB, partMachine)]

theorem bare : directory.cluster.BareNodes := by decide

theorem distinct : directory.cluster.DistinctIds := by decide

theorem matching : directory.cluster.Matching fun n m => (n, m) ∈ pairs :=
  .of_pairs (by decide) (by decide) (by decide)

theorem fleetMachines_eq : fleetGroup.machines directory.cluster = [partMachine] :=
  NodeGroup.machines_of_ascending rfl (by decide)

theorem fleetMembers_eq :
    fleetGroup.members directory.cluster = [⟨"id-b", some "node-b"⟩] := by
  rw [NodeGroup.members, fleetMachines_eq]
  rfl

/-- Though one Machine of the small cluster lacks a provider ID, its Node is named once. -/
theorem pairs_attributed : directory.cluster.Reached ∧ directory.cluster.Placed ∧
    directory.cluster.BareNodes ∧ directory.cluster.DistinctIds ∧
    (directory.cluster.Matching fun n m => (n, m) ∈ pairs) ∧
    (nodeB, partMachine) ∈ pairs ∧
    (([soloGroup, fleetGroup].flatMap fun g => g.members directory.cluster).map
      Instance.id).Nodup ∧
    ∀ other, directory.groupForNode nodeB = .ok (some other) → other = fleetGroup := by
  obtain ⟨toMachine, -, listed⟩ := Directory.no_misattribution directory
    (fun n m => (n, m) ∈ pairs) reached placed bare distinct matching
  obtain ⟨once, -, own⟩ := listed _ groups_eq
  refine ⟨reached, placed, bare, distinct, matching, ?_, once, ?_⟩
  · exact toMachine nodeB (by decide) partMachine rfl
  · have named : ⟨"id-b", some "node-b"⟩ ∈ fleetGroup.members directory.cluster := by
      rw [fleetMembers_eq]
      exact List.mem_cons_self
    exact own fleetGroup (by decide) _ named nodeB (by decide) "node-b" rfl rfl

end Lab
end NodeGroups
