import NodeGroups.Command.Program
import NodeGroups.Proofs.Encoding
import NodeGroups.Proofs.Enumeration
import NodeGroups.Proofs.Reading

/-!
# What a run prints

Summaries that are written as JSON are read back, as one document that lists them in order.
-/
namespace NodeGroups

/-! ## Summaries -/

theorem Instance.ofJson?_toJson (i : Instance) : ofJson? i.toJson = some i := by
  obtain ⟨id, nodeName⟩ := i
  cases nodeName with
  | none => rfl
  | some name => rfl

theorem Summary.ofJson?_toJson (s : Summary) : ofJson? s.toJson = some s := by
  have id : s.toJson.required? Json.asText? "id" = some s.id := rfl
  have kind : s.toJson.required? (fun k => k.asText?.bind ScalableKind.ofText?) "kind" =
      some s.kind := ScalableKind.ofText?_eq_some_iff.mpr rfl
  have ns : s.toJson.required? Json.asText? "namespace" = some s.ns := rfl
  have name : s.toJson.required? Json.asText? "name" = some s.name := rfl
  have minSize : s.toJson.required? Json.asInt32? "minSize" = some s.minSize :=
    Json.reads_int32.back s.minSize
  have maxSize : s.toJson.required? Json.asInt32? "maxSize" = some s.maxSize :=
    Json.reads_int32.back s.maxSize
  have size : s.toJson.required? Json.asInt32? "size" = some s.size := Json.reads_int32.back s.size
  have members : s.toJson.required? (Json.asListOf? Instance.ofJson?) "members" =
      some s.members := Json.every_map Instance.ofJson?_toJson s.members
  rw [ofJson?, id, kind, ns, name, minSize, maxSize, size, members]
  rfl

namespace Json

theorem mem_itemTokens {items : List Json} {t : Token} (h : t ∈ itemTokens items) :
    t = .comma ∨ ∃ item ∈ items, t ∈ item.tokens := by
  induction items with
  | nil => cases h
  | cons item rest ih =>
    cases rest with
    | nil => exact Or.inr ⟨item, List.mem_cons_self, h⟩
    | cons next rest =>
      rw [itemTokens, List.mem_append, List.mem_cons] at h
      · rcases h with h | h | h
        · exact Or.inr ⟨item, List.mem_cons_self, h⟩
        · exact Or.inl h
        · exact (ih h).imp_right fun ⟨other, ho, ht⟩ =>
            ⟨other, List.mem_cons_of_mem item ho, ht⟩
      · simp

theorem mem_memberTokens {members : List (String × Json)} {t : Token}
    (h : t ∈ memberTokens members) :
    (∃ name, t = .text name) ∨ t = .colon ∨ t = .comma ∨
      ∃ member ∈ members, t ∈ member.2.tokens := by
  induction members with
  | nil => cases h
  | cons member rest ih =>
    obtain ⟨name, value⟩ := member
    have held (ht : t ∈ value.tokens) : ∃ member ∈ (name, value) :: rest, t ∈ member.2.tokens :=
      ⟨(name, value), List.mem_cons_self, ht⟩
    cases rest with
    | nil =>
      rw [memberTokens, List.mem_cons, List.mem_cons] at h
      rcases h with h | h | h
      · exact Or.inl ⟨name, h⟩
      · exact Or.inr (Or.inl h)
      · exact Or.inr (Or.inr (Or.inr (held h)))
    | cons next rest =>
      rw [memberTokens, List.cons_append, List.cons_append, List.mem_cons, List.mem_cons,
        List.mem_append, List.mem_cons] at h
      · rcases h with h | h | h | h | h
        · exact Or.inl ⟨name, h⟩
        · exact Or.inr (Or.inl h)
        · exact Or.inr (Or.inr (Or.inr (held h)))
        · exact Or.inr (Or.inr (Or.inl h))
        · exact (ih h).imp_right (Or.imp_right (Or.imp_right fun ⟨other, ho, ht⟩ =>
            ⟨other, List.mem_cons_of_mem _ ho, ht⟩))
      · simp

theorem isPlain_array {items : List Json} (plain : ∀ item ∈ items, item.IsPlain) :
    (array items).IsPlain := by
  intro t ht
  rw [tokens, List.mem_append, List.mem_cons, List.mem_singleton] at ht
  rcases ht with (rfl | ht) | rfl
  · trivial
  · rcases mem_itemTokens ht with rfl | ⟨item, hi, ht⟩
    · trivial
    · exact plain item hi t ht
  · trivial

theorem isPlain_object {members : List (String × Json)}
    (plain : ∀ member ∈ members, member.2.IsPlain) : (object members).IsPlain := by
  intro t ht
  rw [tokens, List.mem_append, List.mem_cons, List.mem_singleton] at ht
  rcases ht with (rfl | ht) | rfl
  · trivial
  · rcases mem_memberTokens ht with ⟨name, rfl⟩ | rfl | rfl | ⟨member, hm, ht⟩
    · trivial
    · trivial
    · trivial
    · exact plain member hm t ht
  · trivial

theorem isPlain_text (s : String) : (text s).IsPlain := by
  intro t ht
  rw [List.mem_singleton.mp ht]
  trivial

theorem isPlain_int32 (n : Int32) : (int n.toInt).IsPlain := by
  intro t ht
  have low := Int32.le_toInt n
  have high := Int32.toInt_lt n
  have least : Int64.size / 2 = 9223372036854775808 := rfl
  have most : Number.significandLimit = 18446744073709551615 := rfl
  rw [List.mem_singleton.mp ht]
  constructor
  · omega
  · omega

end Json

theorem Instance.isPlain_toJson (i : Instance) : i.toJson.IsPlain := by
  refine Json.isPlain_object fun member hm => ?_
  rcases List.mem_cons.mp hm with rfl | hm
  · exact Json.isPlain_text i.id
  · cases name : i.nodeName with
    | none =>
      rw [name] at hm
      cases hm
    | some s =>
      rw [name] at hm
      rw [List.mem_singleton.mp hm]
      exact Json.isPlain_text s

theorem Summary.isPlain_toJson (s : Summary) : s.toJson.IsPlain := by
  have members : (Json.array (s.members.map Instance.toJson)).IsPlain := by
    refine Json.isPlain_array fun item hi => ?_
    obtain ⟨i, -, rfl⟩ := List.mem_map.mp hi
    exact i.isPlain_toJson
  refine Json.isPlain_object fun member hm => ?_
  simp only [List.mem_cons, List.not_mem_nil, or_false] at hm
  rcases hm with rfl | rfl | rfl | rfl | rfl | rfl | rfl | rfl
  · exact Json.isPlain_text _
  · exact Json.isPlain_text _
  · exact Json.isPlain_text _
  · exact Json.isPlain_text _
  · exact Json.isPlain_int32 _
  · exact Json.isPlain_int32 _
  · exact Json.isPlain_int32 _
  · exact members

/-- What is written as JSON is one document, the array of the summaries in their order. -/
theorem Layout.parse?_render (ss : List Summary) :
    Json.parse? (Layout.json.render ss) = some (.array (ss.map Summary.toJson)) := by
  refine Json.parse?_indented (Json.isPlain_array fun item hi => ?_)
  obtain ⟨s, -, rfl⟩ := List.mem_map.mp hi
  exact s.isPlain_toJson

theorem Summary.listOfText?_render (ss : List Summary) :
    listOfText? (Layout.json.render ss) = some ss := by
  rw [listOfText?, Layout.parse?_render]
  exact Json.every_map ofJson?_toJson ss

/-! ## Prose -/

namespace Json

/-- A word that nothing can make a token of is in no JSON, however the text goes on. -/
theorem scanFrom_no_word {reversed : List Char}
    (never : ∀ more, wordToken? (reversed.reverse ++ more) = none) (cs : List Char) :
    scanFrom (.word reversed) cs = none := by
  have so_far : wordToken? reversed.reverse = none := by simpa using never []
  induction cs generalizing reversed with
  | nil =>
    change (wordToken? reversed.reverse).map (fun t => [t]) = none
    rw [so_far]
    rfl
  | cons c rest ih =>
    by_cases on : IsWordChar c
    · have step_on : step c (.word reversed) = some ([], .word (c :: reversed)) := by
        rw [step, if_neg on]
      have longer : ∀ more, wordToken? ((c :: reversed).reverse ++ more) = none := by
        intro more
        simpa using never (c :: more)
      rw [scanFrom_silent step_on]
      exact ih longer (by simpa using longer [])
    · rw [IsWordChar, Classical.not_not] at on
      rw [scanFrom_cons, step, if_pos on, so_far]
      rfl

end Json

namespace Command

theorem parse?_noGroup (node : String) (l : Layout) (c : Cluster) :
    Json.parse? ((Finding.noGroup node).render l c) = none := by
  have chars : ((Finding.noGroup node).render l c).toList = 'n' :: 'o' :: 'd' :: 'e' :: ' ' ::
      (node.toList ++ " does not belong to a node group\n".toList) := by
    rw [Finding.render, String.toList_append, String.toList_append]
    rfl
  rw [Json.parse?, Json.scan, chars]
  rfl

theorem parse?_notScalable (id : GroupId) (l : Layout) (c : Cluster) :
    Json.parse? ((Finding.notScalable id).render l c) = none := by
  obtain ⟨rest, chars⟩ : ∃ rest, ((Finding.notScalable id).render l c).toList = 'M' :: rest := by
    obtain ⟨kind, ns, name⟩ := id
    simp only [Finding.render, GroupId.text, String.toList_append]
    cases kind <;> exact ⟨_, rfl⟩
  have never : ∀ more, Json.wordToken? (['M'].reverse ++ more) = none := fun more => rfl
  have opened : Json.step 'M' .nothing = some ([], .word ['M']) := rfl
  rw [Json.parse?, Json.scan, chars, Json.scanFrom_silent opened, Json.scanFrom_no_word never]
  rfl

/-! ## Runs -/

/-- With JSON asked for, a query that fails prints nothing. One that finds groups prints one
document, the array of their summaries in the order of the answer, and it is read back as those.
The two answers that have no group to show are told in prose all the same, which is no JSON. -/
theorem json_output (i : Invocation) (json : i.layout = .json) (c : Cluster) :
    (∃ fault, i.query.find ⟨c, i.settings⟩ = .error fault ∧
      (i.answer c).exitCode ≠ 0 ∧ (i.answer c).stdout = "") ∨
    (∃ found, i.query.find ⟨c, i.settings⟩ = .ok (.groups found) ∧ (i.answer c).exitCode = 0 ∧
      Json.parse? (i.answer c).stdout =
        some (.array ((found.map fun g => g.summary c).map Summary.toJson)) ∧
      Summary.listOfText? (i.answer c).stdout = some (found.map fun g => g.summary c)) ∨
    (((∃ node, i.query.find ⟨c, i.settings⟩ = .ok (.noGroup node)) ∨
        ∃ id, i.query.find ⟨c, i.settings⟩ = .ok (.notScalable id)) ∧
      (i.answer c).exitCode = 0 ∧ Json.parse? (i.answer c).stdout = none) := by
  cases answered : i.query.find ⟨c, i.settings⟩ with
  | error fault =>
    have failed : i.answer c = .failed fault.message := by rw [Invocation.answer, answered]
    refine Or.inl ⟨fault, rfl, ?_, ?_⟩
    · rw [failed]
      exact Nat.one_ne_zero
    · rw [failed]
      rfl
  | ok finding =>
    have printed : i.answer c = .printed (finding.render .json c) := by
      rw [Invocation.answer, answered, json]
    rw [printed]
    cases finding with
    | groups found =>
      exact Or.inr (Or.inl ⟨found, rfl, rfl, Layout.parse?_render _, Summary.listOfText?_render _⟩)
    | noGroup node =>
      exact Or.inr (Or.inr ⟨Or.inl ⟨node, rfl⟩, rfl, parse?_noGroup node .json c⟩)
    | notScalable id =>
      exact Or.inr (Or.inr ⟨Or.inr ⟨id, rfl⟩, rfl, parse?_notScalable id .json c⟩)

theorem Invocation.stdout_of_failed {i : Invocation} {c : Cluster}
    (failed : (i.answer c).exitCode ≠ 0) : (i.answer c).stdout = "" := by
  cases answered : i.query.find ⟨c, i.settings⟩ with
  | error fault =>
    rw [answer, answered]
    rfl
  | ok finding =>
    have printed : i.answer c = .printed (finding.render i.layout c) := by rw [answer, answered]
    rw [printed] at failed
    exact absurd rfl failed

/-- Whatever is asked for and in whatever layout, a run that fails has printed nothing. -/
theorem stdout_of_failed_run {arguments : List String} {e : Environment} {s : Surroundings}
    (failed : (run arguments e s).exitCode ≠ 0) : (run arguments e s).stdout = "" := by
  cases demanded : Demand.ofArguments? e arguments with
  | none =>
    rw [run, demanded]
    rfl
  | some demand =>
    cases demand with
    | version =>
      have printed : run arguments e s = .printed versionLine := by rw [run, demanded]
      rw [printed] at failed
      exact absurd rfl failed
    | run i =>
      cases filled : i.cluster s with
      | error fault =>
        have ended : run arguments e s = .failed fault.message := by
          simp only [run, demanded, filled]
        rw [ended]
        rfl
      | ok c =>
        have answered : run arguments e s = i.answer c := by simp only [run, demanded, filled]
        rw [answered] at failed ⊢
        exact Invocation.stdout_of_failed failed

end Command

namespace Lab

/-- A query whose answer is to be JSON. -/
def asJson (query : Command.Query) : Command.Invocation :=
  ⟨⟨none, none, none, none, some .json⟩, query⟩

theorem groups_printed : (asJson .nodeGroups).layout = .json ∧
    Summary.listOfText? ((asJson .nodeGroups).answer directory.cluster).stdout =
      some [soloGroup.summary directory.cluster, fleetGroup.summary directory.cluster] := by
  have json : (asJson .nodeGroups).layout = .json := rfl
  have answered : (asJson .nodeGroups).query.find directory =
      .ok (.groups [soloGroup, fleetGroup]) := by
    simp only [asJson, Command.Query.find, groups_eq]
  refine ⟨json, ?_⟩
  rcases Command.json_output (asJson .nodeGroups) json directory.cluster with
    ⟨fault, failed, -⟩ | ⟨found, went, -, -, read⟩ | ⟨⟨node, went⟩ | ⟨id, went⟩, -⟩
  · cases answered.symm.trans failed
  · cases answered.symm.trans went
    exact read
  · cases answered.symm.trans went
  · cases answered.symm.trans went

/-- A cluster of one Node that no Machine is of. -/
def lone : Cluster := { Cluster.empty .folding with nodes := ⟨.folding, [nodeA]⟩ }

theorem prose_printed : (asJson (.nodeGroupFor "node-a")).layout = .json ∧
    (asJson (.nodeGroupFor "node-a")).answer lone =
      .printed "node node-a does not belong to a node group\n" ∧
    Json.parse? "node node-a does not belong to a node group\n" = none := by
  exact ⟨rfl, rfl, rfl⟩

end Lab
end NodeGroups
