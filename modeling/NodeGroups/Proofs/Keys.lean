import NodeGroups.Proofs.Caches
import NodeGroups.Settings

/-!
# Keys as text

A namespace and a name that are segments, neither empty nor with a slash in them, make one text
from which both can be read again. The namespaced kinds are given such names by the server that
stores them (`Metadata.Placed`). Which texts are keys and which are refused can be told from their
slashes (`ObjectKey.parse_eq_ok_iff`, `ObjectKey.parse_eq_error_iff`); the error of a refused one
has it as it was given. A key is read back from what is written of it exactly where no slash is in
its parts (`ObjectKey.parse_text_eq_ok_iff`).
-/
namespace NodeGroups

namespace Text

/-- A text that can stand between the slashes of a key. -/
def IsSegment (s : String) : Prop := s ≠ "" ∧ '/' ∉ s.toList

instance (s : String) : Decidable (IsSegment s) := inferInstanceAs (Decidable (_ ∧ _))

/-- A text has one segment more than slashes. -/
theorem length_segments (cs : List Char) : (segments cs).length = cs.count '/' + 1 := by
  induction cs with
  | nil => rfl
  | cons c rest ih =>
    rw [segments]
    split
    · next hc => simp [hc, ih]
    · next hc =>
      rw [List.count_cons_of_ne hc, ← ih]
      cases hs : segments rest with
      | nil => exact absurd hs (segments_ne_nil rest)
      | cons piece pieces => rfl

/-- What is put together from pieces without a slash is cut into these pieces again. -/
theorem segments_joined {pieces : List (List Char)} (filled : pieces ≠ [])
    (clear : ∀ piece ∈ pieces, '/' ∉ piece) : segments (joined pieces) = pieces := by
  induction pieces with
  | nil => exact absurd rfl filled
  | cons piece rest ih =>
    have apart := clear piece List.mem_cons_self
    cases rest with
    | nil => exact segments_of_not_mem apart
    | cons next others =>
      have cut := ih (List.cons_ne_nil next others) fun p hp =>
        clear p (List.mem_cons_of_mem piece hp)
      change segments (piece ++ '/' :: joined (next :: others)) = piece :: next :: others
      rw [segments_append_slash apart, cut]

/-- A text is cut into just the pieces without a slash that it is put together from. -/
theorem segments_eq_iff {cs : List Char} {pieces : List (List Char)} (filled : pieces ≠ []) :
    segments cs = pieces ↔ cs = joined pieces ∧ ∀ piece ∈ pieces, '/' ∉ piece := by
  constructor
  · intro cut
    subst cut
    exact ⟨(joined_segments cs).symm, fun piece hp => not_mem_of_mem_segments hp⟩
  · rintro ⟨whole, clear⟩
    rw [whole]
    exact segments_joined filled clear

theorem segments_eq_singleton_iff {cs piece : List Char} :
    segments cs = [piece] ↔ cs = piece ∧ '/' ∉ piece := by
  rw [segments_eq_iff (List.cons_ne_nil piece []), List.forall_mem_singleton]
  rfl

theorem segments_of_mem {cs : List Char} (h : '/' ∈ cs) :
    ∃ first second others, segments cs = first :: second :: others := by
  cases hs : segments cs with
  | nil => exact absurd hs (segments_ne_nil cs)
  | cons first rest =>
    cases rest with
    | nil =>
      obtain ⟨rfl, clear⟩ := segments_eq_singleton_iff.mp hs
      exact absurd h clear
    | cons second others => exact ⟨first, second, others, rfl⟩

theorem segments_eq_pair_iff {cs first second : List Char} :
    segments cs = [first, second] ↔
      cs = first ++ '/' :: second ∧ '/' ∉ first ∧ '/' ∉ second := by
  rw [segments_eq_iff (List.cons_ne_nil first [second]), List.forall_mem_cons,
    List.forall_mem_singleton]
  rfl

end Text

namespace ObjectKey

theorem toList_pair (ns name : String) :
    (ns ++ "/" ++ name).toList = ns.toList ++ '/' :: name.toList := by simp

/-- After a namespace without a slash, the rest is the name or there is no key. -/
theorem parse_pair_eq_ok_iff {ns name : String} (hns : '/' ∉ ns.toList) {k : ObjectKey} :
    parse (ns ++ "/" ++ name) = .ok k ↔ Text.IsSegment name ∧ k = ⟨ns, name⟩ := by
  rw [parse, toList_pair, Text.segments_append_slash hns]
  by_cases hslash : '/' ∈ name.toList
  · obtain ⟨first, second, others, hs⟩ := Text.segments_of_mem hslash
    simp [hs, Text.IsSegment, hslash]
  · rw [Text.segments_of_not_mem hslash]
    by_cases he : name = ""
    · subst he
      simp [named, Text.IsSegment]
    · have hl : name.toList ≠ [] := by simpa using he
      simp [named, hl, Text.IsSegment, hslash, he, eq_comm]

/-- A refused text stands in the error as it was given. -/
theorem parse_error {s : String} {e : Error} (h : parse s = .error e) :
    ∃ fault : KeyFault, e = fault.about s := by
  have refused : ∀ ns name, named s ns name = .error e → e = KeyFault.noName.about s := by
    intro ns name hn
    rw [named] at hn
    split at hn
    · cases hn
      rfl
    · cases hn
  rw [parse] at h
  split at h
  · exact ⟨.noName, refused _ _ h⟩
  · exact ⟨.noName, refused _ _ h⟩
  · cases h
    exact ⟨.shape, rfl⟩

theorem named_eq_ok_iff {source : String} {ns name : List Char} {k : ObjectKey} :
    named source ns name = .ok k ↔ name ≠ [] ∧ ns = k.ns.toList ∧ name = k.name.toList := by
  obtain ⟨kns, kname⟩ := k
  rw [named]
  by_cases empty : name = []
  · simp [empty]
  · simp only [empty, if_false, Except.ok.injEq, mk.injEq, ne_eq, not_false_eq_true, true_and]
    rw [← String.toList_inj, ← String.toList_inj, String.toList_ofList, String.toList_ofList]

/-- The texts that are read as a key: the name after the namespace, or alone where that is
empty. -/
theorem parse_eq_ok_iff {s : String} {k : ObjectKey} : parse s = .ok k ↔
    Text.IsSegment k.name ∧ '/' ∉ k.ns.toList ∧
      (s = k.ns ++ "/" ++ k.name ∨ k.ns = "" ∧ s = k.name) := by
  constructor
  · intro h
    rw [parse] at h
    split at h
    · next name alone =>
      obtain ⟨filled, ns, rfl⟩ := named_eq_ok_iff.mp h
      obtain ⟨same, clear⟩ := Text.segments_eq_singleton_iff.mp alone
      have nowhere : k.ns = "" := by simpa using ns.symm
      exact ⟨⟨by simpa using filled, clear⟩, by simp [nowhere],
        Or.inr ⟨nowhere, String.toList_inj.mp same⟩⟩
    · next ns name pair =>
      obtain ⟨filled, rfl, rfl⟩ := named_eq_ok_iff.mp h
      obtain ⟨same, clear, also⟩ := Text.segments_eq_pair_iff.mp pair
      rw [← toList_pair] at same
      exact ⟨⟨by simpa using filled, also⟩, clear, Or.inl (String.toList_inj.mp same)⟩
    · cases h
  · rintro ⟨part, clear, rfl | ⟨nowhere, rfl⟩⟩
    · exact (parse_pair_eq_ok_iff clear).mpr ⟨part, rfl⟩
    · rw [parse, Text.segments_of_not_mem part.2]
      exact named_eq_ok_iff.mpr ⟨by simpa using part.1, by simp [nowhere], rfl⟩

theorem name_ne_of_parse {s : String} {k : ObjectKey} (h : parse s = .ok k) : k.name ≠ "" :=
  (parse_eq_ok_iff.mp h).1.1

/-- The texts that are refused: those with two slashes or more, and those without a name. -/
theorem parse_eq_error_iff {s : String} : (∃ e, parse s = .error e) ↔
    s = "" ∨ 2 ≤ s.toList.count '/' ∨ s.toList.getLast? = some '/' := by
  have length := Text.length_segments s.toList
  rw [parse]
  split
  · next name alone =>
    obtain ⟨rfl, clear⟩ := Text.segments_eq_singleton_iff.mp alone
    have single : s.toList.count '/' = 0 := List.count_eq_zero.mpr clear
    have last : s.toList.getLast? ≠ some '/' := fun h => clear (List.mem_of_getLast? h)
    by_cases empty : s = "" <;> simp [named, empty, single, last]
  · next ns name pair =>
    obtain ⟨same, clear, also⟩ := Text.segments_eq_pair_iff.mp pair
    have single : s.toList.count '/' = 1 := by
      rw [pair] at length
      simpa using length.symm
    have there : s ≠ "" := by
      rintro rfl
      simp at same
    have last : s.toList.getLast? = some '/' ↔ name = [] := by
      rw [same]
      cases name with
      | nil => simp
      | cons c rest =>
        simp only [reduceCtorEq, iff_false]
        intro h
        rw [List.getLast?_append_of_ne_nil _ (by simp), List.getLast?_cons_cons] at h
        exact also (List.mem_of_getLast? h)
    by_cases empty : name = [] <;> simp [named, empty, single, last, there]
  · next neither pair =>
    have many : 2 ≤ s.toList.count '/' := by
      cases hs : Text.segments s.toList with
      | nil => exact absurd hs (Text.segments_ne_nil _)
      | cons first rest =>
        cases rest with
        | nil => exact absurd hs (neither first)
        | cons second rest =>
          cases rest with
          | nil => exact absurd hs (pair first second)
          | cons third others =>
            simp only [hs, List.length_cons] at length
            omega
    simp [many]

/-! ## Keys that are written -/

/-- A key that can be told again from its text. -/
structure Readable (k : ObjectKey) : Prop where
  name : k.name ≠ ""
  nameClear : '/' ∉ k.name.toList
  nsClear : '/' ∉ k.ns.toList

instance (k : ObjectKey) : Decidable k.Readable :=
  decidable_of_iff (k.name ≠ "" ∧ '/' ∉ k.name.toList ∧ '/' ∉ k.ns.toList)
    ⟨fun h => ⟨h.1, h.2.1, h.2.2⟩, fun h => ⟨h.name, h.nameClear, h.nsClear⟩⟩

variable {k : ObjectKey} {s : String}

theorem text_cases (k : ObjectKey) :
    k.ns = "" ∧ k.text = k.name ∨ k.ns ≠ "" ∧ k.text = k.ns ++ "/" ++ k.name := by
  by_cases nowhere : k.ns = ""
  · exact Or.inl ⟨nowhere, if_pos nowhere⟩
  · exact Or.inr ⟨nowhere, if_neg nowhere⟩

theorem readable_of_parse (h : parse s = .ok k) : k.Readable := by
  obtain ⟨part, clear, -⟩ := parse_eq_ok_iff.mp h
  exact ⟨part.1, part.2, clear⟩

/-- What is written is read back exactly where the parts keep clear of the slash. -/
theorem parse_text_eq_ok_iff : parse k.text = .ok k ↔ k.Readable := by
  constructor
  · exact readable_of_parse
  · intro readable
    refine parse_eq_ok_iff.mpr ⟨⟨readable.name, readable.nameClear⟩, readable.nsClear, ?_⟩
    rcases k.text_cases with ⟨nowhere, alone⟩ | ⟨-, pair⟩
    · exact Or.inr ⟨nowhere, alone⟩
    · exact Or.inl pair

theorem eq_of_text {l : ObjectKey} (readk : k.Readable) (readl : l.Readable)
    (same : k.text = l.text) : k = l := by
  have backk := parse_text_eq_ok_iff.mpr readk
  have backl := parse_text_eq_ok_iff.mpr readl
  rw [same] at backk
  exact Except.ok.inj (backk.symm.trans backl)

/-- A key is written as it was read, but for a slash that the text started with. -/
theorem text_of_parse (h : parse s = .ok k) :
    k.text = s ∧ s.toList.head? ≠ some '/' ∨ s = "/" ++ k.text := by
  obtain ⟨part, clear, whole⟩ := parse_eq_ok_iff.mp h
  rcases k.text_cases with ⟨nowhere, alone⟩ | ⟨there, pair⟩
  · rw [alone]
    rcases whole with rfl | ⟨-, rfl⟩
    · exact Or.inr (by rw [nowhere]; rfl)
    · refine Or.inl ⟨rfl, fun first => part.2 ?_⟩
      exact List.mem_of_head? first
  · rcases whole with rfl | ⟨nowhere, -⟩
    · refine Or.inl ⟨pair, fun first => clear ?_⟩
      have filled : k.ns.toList ≠ [] := by simpa using there
      rw [toList_pair, List.head?_append_of_ne_nil _ filled] at first
      exact List.mem_of_head? first
    · exact absurd nowhere there

/-- The slash at the end is the one that nothing follows. -/
theorem getLast?_eq_slash_iff : s.toList.getLast? = some '/' ↔ ∃ ns, s = ns ++ "/" ++ "" := by
  rw [List.getLast?_eq_some_iff]
  constructor
  · rintro ⟨before, whole⟩
    refine ⟨String.ofList before, String.toList_inj.mp ?_⟩
    rw [toList_pair, String.toList_ofList]
    exact whole
  · rintro ⟨ns, rfl⟩
    exact ⟨ns.toList, toList_pair ns ""⟩

/-- The texts that are read: one slash at most, and something after it or, without one, at all. -/
theorem exists_parse_iff : (∃ k, parse s = .ok k) ↔
    s.toList.count '/' ≤ 1 ∧ s ≠ "" ∧ ∀ ns name, s = ns ++ "/" ++ name → name ≠ "" := by
  have refused : (∃ e, parse s = .error e) ↔ _ := parse_eq_error_iff
  rw [getLast?_eq_slash_iff] at refused
  constructor
  · rintro ⟨k, read⟩
    have sound : ¬ ∃ e, parse s = .error e := by
      rintro ⟨e, failed⟩
      cases read.symm.trans failed
    simp only [refused, not_or, not_exists] at sound
    obtain ⟨filled, single, ended⟩ := sound
    refine ⟨by omega, filled, ?_⟩
    rintro ns name whole rfl
    exact ended ns whole
  · rintro ⟨single, filled, followed⟩
    cases read : parse s with
    | ok k => exact ⟨k, rfl⟩
    | error e =>
      rcases refused.mp ⟨e, read⟩ with empty | many | ⟨ns, whole⟩
      · exact absurd empty filled
      · omega
      · exact absurd rfl (followed ns "" whole)

/-- Keys and their texts are told from each other exactly where no part has a slash. -/
theorem text_round_trip :
    (∀ k : ObjectKey, parse k.text = .ok k ↔ k.Readable) ∧
    (∀ k l : ObjectKey, k.Readable → l.Readable → k.text = l.text → k = l) ∧
    ∀ s : String,
      ((∃ k, parse s = .ok k) ↔ s.toList.count '/' ≤ 1 ∧ s ≠ "" ∧
        ∀ ns name, s = ns ++ "/" ++ name → name ≠ "") ∧
      (∀ k, parse s = .ok k → k.Readable ∧ parse k.text = parse s ∧
        (s.toList.head? ≠ some '/' → k.text = s) ∧ ∀ rest, s = "/" ++ rest → k.text = rest) ∧
      ∀ e, parse s = .error e → ∃ message, e = .invalidKey s message := by
  refine ⟨fun k => parse_text_eq_ok_iff, fun k l => eq_of_text, fun s =>
    ⟨exists_parse_iff, fun k read => ?_, fun e failed => ?_⟩⟩
  · have readable := readable_of_parse read
    refine ⟨readable, (parse_text_eq_ok_iff.mpr readable).trans read.symm, ?_, ?_⟩
    · intro unslashed
      rcases text_of_parse read with ⟨same, -⟩ | slashed
      · exact same
      · rw [slashed] at unslashed
        simp at unslashed
    · rintro rest rfl
      rcases text_of_parse read with ⟨-, unslashed⟩ | slashed
      · simp at unslashed
      · exact ((String.append_right_inj "/").mp slashed).symm
  · obtain ⟨fault, rfl⟩ := parse_error failed
    exact ⟨fault.message, rfl⟩

/-- A key in a namespace is read back, one with a slash in its name is not, and a text that starts
with its slash loses it. -/
theorem labKey_read_back : Readable ⟨"lab", "solo"⟩ ∧ Readable ⟨"", "solo"⟩ ∧
    parse (text ⟨"lab", "solo"⟩) = .ok ⟨"lab", "solo"⟩ ∧
    parse (text ⟨"", "lab/solo"⟩) ≠ .ok ⟨"", "lab/solo"⟩ ∧
    (∃ k, parse "/solo" = .ok k ∧ k.text = "solo" ∧ parse "solo" = .ok k) ∧
    ∃ e, parse "lab/part/solo" = .error e ∧ ∃ message, e = .invalidKey "lab/part/solo" message := by
  obtain ⟨back, -, texts⟩ := text_round_trip
  obtain ⟨-, slashed, -⟩ := texts "/solo"
  obtain ⟨-, -, refused⟩ := texts "lab/part/solo"
  have fine : Readable ⟨"lab", "solo"⟩ := by decide
  have broken : ¬ Readable ⟨"", "lab/solo"⟩ := by decide
  obtain ⟨-, again, -, without⟩ := slashed ⟨"", "solo"⟩ rfl
  exact ⟨fine, by decide, (back _).mpr fine, fun read => broken ((back _).mp read),
    ⟨_, rfl, without "solo" rfl, again⟩, _, rfl, refused _ rfl⟩

end ObjectKey

/-- A cache filled by hand finds the object whose key it is asked for, in a namespace or in none. -/
theorem Cache.Keyed.get?_key {α : Type} [Resource α] {c : Cache α} (h : c.Keyed)
    (hc : c.keying = .folding) {key : ObjectKey} {a : α} : c.get? key.ns? key.name = some a ↔
      a ∈ c.objects ∧ (Resource.metadata a).key = .ok key := by
  have place : key.ns?.getD "" = key.ns := by
    rw [ObjectKey.ns?]
    split
    · next nowhere => exact nowhere.symm
    · rfl
  rw [h.get?_folding hc, place]

theorem Settings.isNamespace_iff {ns : String} : isNamespace ns = true ↔ Text.IsSegment ns := by
  simp [isNamespace, Text.IsSegment]

/-- A scope that is accepted is a namespace that an object can have. -/
theorem Settings.scope_isSegment {s : Settings} (valid : s.validate = .ok ()) {ns : String}
    (h : s.ns = some ns) : Text.IsSegment ns := by
  rw [Settings.validate] at valid
  split at valid
  · cases valid
  · rw [h] at valid
    dsimp only at valid
    split at valid
    · next hn => exact isNamespace_iff.mp hn
    · cases valid

/-- Namespace and name are there, and both are segments. -/
structure Metadata.Placed (m : Metadata) : Prop where
  ns : ∃ ns, m.ns = some ns ∧ Text.IsSegment ns
  name : ∃ name, m.name = some name ∧ Text.IsSegment name

instance (o : Option String) : Decidable (∃ s, o = some s ∧ Text.IsSegment s) :=
  match o with
  | none => isFalse (by simp)
  | some s => decidable_of_iff (Text.IsSegment s) (by simp)

instance (m : Metadata) : Decidable m.Placed :=
  decidable_of_iff ((∃ ns, m.ns = some ns ∧ Text.IsSegment ns) ∧
    ∃ name, m.name = some name ∧ Text.IsSegment name) ⟨fun h => ⟨h.1, h.2⟩, fun h => ⟨h.1, h.2⟩⟩

theorem Metadata.Placed.key_eq_ok {m : Metadata} (h : m.Placed) : ∃ ns name,
    m.ns = some ns ∧ m.name = some name ∧ Text.IsSegment ns ∧ Text.IsSegment name ∧
      m.key = .ok ⟨ns, name⟩ := by
  obtain ⟨ns, hns, segment⟩ := h.ns
  obtain ⟨name, hname, part⟩ := h.name
  refine ⟨ns, name, hns, hname, segment, part, Metadata.key_eq_ok_iff.mpr ⟨?_, hname, part.1⟩⟩
  rw [hns]
  rfl

theorem Cache.direct_of_placed {α : Type} [Resource α] {c : Cache α}
    (h : ∀ a ∈ c.objects, (Resource.metadata a).Placed) : c.Direct := by
  refine Or.inr fun a ha hn => ?_
  obtain ⟨ns, hns, -⟩ := (h a ha).ns
  rw [hn] at hns
  cases hns

/-- All objects of the kinds that have namespaces are placed. -/
structure Cluster.Placed (c : Cluster) : Prop where
  machines : ∀ m ∈ c.machines.objects, m.metadata.Placed
  machineSets : ∀ ms ∈ c.machineSets.objects, ms.metadata.Placed
  machineDeployments : ∀ md ∈ c.machineDeployments.objects, md.metadata.Placed

/-- In none of these caches a look falls back to an object outside all namespaces. -/
structure Cluster.Direct (c : Cluster) : Prop where
  machines : c.machines.Direct
  machineSets : c.machineSets.Direct
  machineDeployments : c.machineDeployments.Direct

/-- No look for an owner falls back to an object outside all namespaces. -/
structure Cluster.OwnersStay (c : Cluster) : Prop where
  machineSets : c.machineSets.Direct
  machineDeployments : c.machineDeployments.Direct

theorem Cluster.Direct.ownersStay {c : Cluster} (h : c.Direct) : c.OwnersStay :=
  ⟨h.machineSets, h.machineDeployments⟩

theorem Cluster.InMemory.direct {c : Cluster} (h : c.InMemory) : c.Direct :=
  ⟨Or.inl h.machines, Or.inl h.machineSets, Or.inl h.machineDeployments⟩

theorem Cluster.Placed.direct {c : Cluster} (h : c.Placed) : c.Direct :=
  ⟨Cache.direct_of_placed h.machines, Cache.direct_of_placed h.machineSets,
    Cache.direct_of_placed h.machineDeployments⟩

end NodeGroups
