import NodeGroups.Json.MergePatch
import NodeGroups.Proofs.Encoding
import NodeGroups.Proofs.Enumeration
import NodeGroups.Server

/-!
# Patches of one field

A merge patch that names one field at the end of a path (`Json.setting`) sets that field and
nothing else: on the way to it there is what was there, patched by the rest of the path, and
beside the way all stays as it was (`Json.at?_above`, `Json.at?_beside`). Of two such patches the
second one counts. The patch of a resize is of this kind, so that a MachineSet or MachineDeployment
is read from what is patched as it was read before, but for the replica count.
-/
namespace NodeGroups

namespace Json

theorem lookup_members (j : Json) (name : String) : j.members.lookup name = j.member? name := by
  cases j <;> rfl

/-- What a path leads to, another path goes on from. -/
theorem at?_append (j : Json) (path rest : List String) :
    j.at? (path ++ rest) = (j.at? path).bind fun value => value.at? rest := by
  induction path generalizing j with
  | nil => rfl
  | cons name path ih =>
    rw [List.cons_append, at?, at?]
    cases j.member? name with
    | none => rfl
    | some value => exact ih value

theorem at?_singleton (j : Json) (name : String) : j.at? [name] = j.member? name := by
  rw [at?]
  cases j.member? name <;> rfl

theorem member?_of_object {j : Json} {name : String} {fields : List (String × Json)}
    (there : j.member? name = some (object fields)) (key : String) :
    (object fields).member? key = j.at? [name, key] := by
  rw [at?, there, Option.bind_some, at?_singleton]

/-- There is nothing inside a value that is no object. -/
theorem at?_of_flat {j : Json} (flat : ∀ fields, j ≠ object fields) {path : List String}
    (deeper : path ≠ []) : j.at? path = none := by
  cases path with
  | nil => exact absurd rfl deeper
  | cons name path =>
    rw [at?]
    cases j with
    | object fields => exact absurd rfl (flat fields)
    | _ => rfl

@[simp]
theorem setMember_setMember (name : String) (v w : Json) (members : List (String × Json)) :
    setMember name w (setMember name v members) = setMember name w members := by
  induction members with
  | nil => simp [setMember]
  | cons entry rest ih =>
    obtain ⟨key, old⟩ := entry
    by_cases same : key = name
    · simp [setMember, same]
    · simp [setMember, same, ih]

/-- The patch that sets the value at the end of a path. -/
def setting (value : Json) : List String → Json
  | [] => value
  | name :: path => object [(name, setting value path)]

/-- A value that a patch puts in the place of what is there, with nothing inside it. -/
structure Replaces (value : Json) : Prop where
  filled : value ≠ null
  flat : ∀ fields, value ≠ object fields
  whole : ∀ target, mergePatch target value = value

theorem replaces_int (n : Int) : (int n).Replaces :=
  ⟨Json.noConfusion, fun _ => Json.noConfusion, fun _ => by rw [mergePatch]⟩

section
variable {value : Json} (replaces : value.Replaces)

include replaces

theorem setting_filled (path : List String) : setting value path ≠ null := by
  cases path with
  | nil => exact replaces.filled
  | cons name path => exact Json.noConfusion

theorem mergePatch_setting (target : Json) (name : String) (path : List String) :
    target.mergePatch (setting value (name :: path)) =
      object (setMember name (((target.member? name).getD null).mergePatch (setting value path))
        target.members) := by
  rw [setting, mergePatch, ← lookup_members]
  cases inner : setting value path with
  | null => exact absurd inner (setting_filled replaces path)
  | _ => rw [mergeMembers, mergeMembers]; simp

theorem member?_mergePatch (target : Json) (name key : String) (path : List String) :
    (target.mergePatch (setting value (name :: path))).member? key =
      if key = name then
        some (((target.member? name).getD null).mergePatch (setting value path))
      else target.member? key := by
  rw [mergePatch_setting replaces, member?, lookup_setMember, lookup_members]

/-- On the way to the field there is what was there, patched by the rest of the path. -/
theorem at?_above (target : Json) (path rest : List String) :
    (target.mergePatch (setting value (path ++ rest))).at? path =
      some (((target.at? path).getD null).mergePatch (setting value rest)) := by
  induction path generalizing target with
  | nil => rfl
  | cons name path ih =>
    rw [List.cons_append, at?, at?, member?_mergePatch replaces, if_pos rfl, Option.bind_some, ih]
    cases target.member? name with
    | some old => rfl
    | none =>
      -- What is not there is patched as null is, and inside null there is nothing either.
      have nothing : (null.at? path).getD null = null := by
        cases path with
        | nil => rfl
        | cons key path => rfl
      rw [Option.getD_none, nothing, Option.bind_none, Option.getD_none]

theorem at?_set (target : Json) (path : List String) :
    (target.mergePatch (setting value path)).at? path = some value := by
  have above := at?_above replaces target path []
  rw [List.append_nil] at above
  rw [above, setting, replaces.whole]

/-- The way to the field leads through objects. -/
theorem at?_on_the_way (target : Json) {path way : List String} (onWay : way <+: path)
    (above : way ≠ path) :
    ∃ fields, (target.mergePatch (setting value path)).at? way = some (object fields) := by
  obtain ⟨rest, rfl⟩ := onWay
  cases rest with
  | nil => exact absurd (List.append_nil way).symm above
  | cons name rest =>
    rw [at?_above replaces, mergePatch_setting replaces]
    exact ⟨_, rfl⟩

/-- Beside the way to the field all is as it was. -/
theorem at?_beside (target : Json) {path other : List String} (notAbove : ¬ other <+: path)
    (notInside : ¬ path <+: other) :
    (target.mergePatch (setting value path)).at? other = target.at? other := by
  induction path generalizing target other with
  | nil => exact absurd List.nil_prefix notInside
  | cons name path ih =>
    cases other with
    | nil => exact absurd List.nil_prefix notAbove
    | cons key other =>
      rw [at?, at?, member?_mergePatch replaces]
      by_cases same : key = name
      · subst same
        rw [List.cons_prefix_cons, not_and] at notAbove notInside
        rw [if_pos rfl, Option.bind_some, ih _ (notAbove rfl) (notInside rfl)]
        cases target.member? key with
        | some old => rfl
        | none =>
          have deeper : other ≠ [] := by
            intro empty
            subst empty
            exact notAbove rfl List.nil_prefix
          rw [Option.getD_none, at?_of_flat (fun _ => Json.noConfusion) deeper]
          rfl
      · rw [if_neg same]

/-- Only what was inside the old value of the field, if it was an object, is gone. -/
theorem at?_elsewhere (target : Json) {path other : List String} (notAbove : ¬ other <+: path)
    (apart : (∃ fields, target.at? path = some (object fields)) → ¬ path <+: other) :
    (target.mergePatch (setting value path)).at? other = target.at? other := by
  by_cases inside : path <+: other
  · obtain ⟨rest, rfl⟩ := inside
    have deeper : rest ≠ [] := by
      intro empty
      subst empty
      rw [List.append_nil] at notAbove
      exact notAbove List.prefix_rfl
    rw [at?_append, at?_append, at?_set replaces, Option.bind_some,
      at?_of_flat replaces.flat deeper]
    cases there : target.at? path with
    | none => rfl
    | some old =>
      have flat : ∀ fields, old ≠ object fields := by
        rintro fields rfl
        exact apart ⟨fields, there⟩ (List.prefix_append path rest)
      rw [Option.bind_some, at?_of_flat flat deeper]
  · exact at?_beside replaces target notAbove inside

/-- Of two patches of one field the second one counts. -/
theorem mergePatch_mergePatch {first : Json} (also : first.Replaces) (target : Json)
    (path : List String) :
    (target.mergePatch (setting first path)).mergePatch (setting value path) =
      target.mergePatch (setting value path) := by
  induction path generalizing target with
  | nil => rw [setting, setting, replaces.whole, replaces.whole]
  | cons name path ih =>
    rw [mergePatch_setting replaces, mergePatch_setting replaces, member?_mergePatch also,
      if_pos rfl, Option.getD_some, ih, mergePatch_setting also, members, setMember_setMember]

end

end Json

/-- Where an object declares its replica count. -/
def countPath : List String := ["spec", "replicas"]

theorem replicasPatch_eq (n : Int32) : replicasPatch n = Json.setting (.int n.toInt) countPath :=
  rfl

namespace Scalable

variable {kind : ScalableKind}

/-- What is read of an object that has its spec as an object. -/
theorem ofJson?_of_spec {j : Json} {spec : List (String × Json)}
    (there : j.member? "spec" = some (.object spec)) :
    (ofJson? j : Option (Scalable kind)) =
      (j.required? Metadata.ofJson? "metadata").bind fun metadata =>
        ((Json.object spec).defaulted? Json.asText? "" "clusterName").bind fun clusterName =>
          ((Json.object spec).optional? Json.asInt32? "replicas").bind fun declared =>
            some ⟨metadata, clusterName, declared⟩ := by
  have whole : j.asRecord? ["metadata", "spec"] 2 = some j := by
    cases j with
    | object members => rfl
    | _ => cases there
  have inner : j.required? (Json.asRecord? ["clusterName", "replicas"] 0) "spec" =
      some (.object spec) := Json.required?_record there
  rw [ofJson?, whole]
  simp only [Option.bind_eq_bind, Option.bind_some, inner]
  rfl

/-- An object whose count is patched is read as it was, but for the count. -/
theorem ofJson?_patched {j : Json} {spec : List (String × Json)}
    (there : j.member? "spec" = some (.object spec)) {s : Scalable kind}
    (read : ofJson? j = some s) (n : Int32) : ofJson? (j.mergePatch (replicasPatch n)) =
      (some { s with declared := some n } : Option (Scalable kind)) := by
  have replaces := Json.replaces_int n.toInt
  have kept (path : List String) (notAbove : ¬ path <+: countPath)
      (notInside : ¬ countPath <+: path) :
      (j.mergePatch (replicasPatch n)).at? path = j.at? path :=
    Json.at?_beside replaces j notAbove notInside
  have onWay : ["spec"] <+: countPath := ⟨["replicas"], rfl⟩
  obtain ⟨fields, held⟩ := Json.at?_on_the_way replaces j onWay (by decide)
  rw [← replicasPatch_eq, Json.at?_singleton] at held
  have metadata : (j.mergePatch (replicasPatch n)).member? "metadata" = j.member? "metadata" := by
    rw [← Json.at?_singleton, kept ["metadata"] (by decide) (by decide), Json.at?_singleton]
  have clusterName : (Json.object fields).member? "clusterName" =
      (Json.object spec).member? "clusterName" := by
    rw [Json.member?_of_object held, kept ["spec", "clusterName"] (by decide) (by decide),
      Json.member?_of_object there]
  have count : (Json.object fields).member? "replicas" = some (.int n.toInt) :=
    (Json.member?_of_object held "replicas").trans (Json.at?_set replaces j countPath)
  have declared : (Json.object fields).optional? Json.asInt32? "replicas" = some (some n) :=
    Json.reads_int32.optional? count
  rw [ofJson?_of_spec there] at read
  obtain ⟨m, hm, read⟩ := Option.bind_eq_some_iff.mp read
  obtain ⟨c, hc, read⟩ := Option.bind_eq_some_iff.mp read
  obtain ⟨d, -, read⟩ := Option.bind_eq_some_iff.mp read
  cases read
  rw [Json.required?, ← metadata, ← Json.required?] at hm
  rw [Json.defaulted?, ← clusterName, ← Json.defaulted?] at hc
  rw [ofJson?_of_spec held, hm, hc, declared]
  rfl

theorem member?_spec_toJson (s : Scalable kind) :
    ∃ spec, s.toJson.member? "spec" = some (.object spec) :=
  ⟨_, by simp [toJson, header]; rfl⟩

end Scalable

/-- The patch of a resize changes the replica count and nothing else: of an object that is written
and read, of all that can be reached in a raw object that has a spec, and of what an earlier patch
has left. -/
theorem replicasPatch_sets_count_alone :
    (∀ (kind : ScalableKind) (s : Scalable kind) (n : Int32),
      Scalable.ofJson? (s.toJson.mergePatch (replicasPatch n)) =
        (some { s with declared := some n } : Option (Scalable kind))) ∧
    (∀ (j : Json) (spec : List (String × Json)) (n : Int32),
      j.at? ["spec"] = some (.object spec) →
        (j.mergePatch (replicasPatch n)).at? countPath = some (.int n.toInt) ∧
        (∀ path, path <+: countPath → path ≠ countPath →
          ∃ fields, (j.mergePatch (replicasPatch n)).at? path = some (.object fields)) ∧
        (∀ path, ¬ path <+: countPath →
          ((∃ fields, j.at? countPath = some (.object fields)) → ¬ countPath <+: path) →
            (j.mergePatch (replicasPatch n)).at? path = j.at? path) ∧
        ∀ (kind : ScalableKind) (s : Scalable kind), Scalable.ofJson? j = some s →
          Scalable.ofJson? (j.mergePatch (replicasPatch n)) =
            (some { s with declared := some n } : Option (Scalable kind))) ∧
    ∀ (j : Json) (n m : Int32), (j.mergePatch (replicasPatch n)).mergePatch (replicasPatch m) =
      j.mergePatch (replicasPatch m) := by
  refine ⟨fun kind s n => ?_, fun j spec n there => ⟨?_, fun path onWay above => ?_,
    fun path notAbove apart => ?_, fun kind s read => ?_⟩, fun j n m => ?_⟩
  · obtain ⟨spec, there⟩ := s.member?_spec_toJson
    exact Scalable.ofJson?_patched there (Scalable.reads.back s) n
  · exact Json.at?_set (Json.replaces_int _) j countPath
  · exact Json.at?_on_the_way (Json.replaces_int _) j onWay above
  · exact Json.at?_elsewhere (Json.replaces_int _) j notAbove apart
  · rw [Json.at?_singleton] at there
    exact Scalable.ofJson?_patched there read n
  · exact Json.mergePatch_mergePatch (Json.replaces_int _) (Json.replaces_int _) j countPath

namespace Lab

/-- The spec of a MachineSet with a member that the type does not have. -/
def templatedSpec : List (String × Json) :=
  [("clusterName", .text "lab"), ("replicas", .int 2),
    ("template", .object [("spec", .object [("providerID", .null)])])]

def templatedSolo : Json :=
  .object [("metadata", solo.metadata.toJson), ("spec", .object templatedSpec)]

/-- A count of five is set, and the template stays, with the null in it. -/
theorem solo_patched_to_five :
    templatedSolo.at? ["spec"] = some (.object templatedSpec) ∧
    Scalable.ofJson? templatedSolo = some solo ∧
    Scalable.ofJson? (templatedSolo.mergePatch (replicasPatch 5)) =
      (some { solo with declared := some 5 } : Option MachineSet) ∧
    ¬ ["spec", "template", "spec", "providerID"] <+: countPath ∧
    (templatedSolo.mergePatch (replicasPatch 5)).at? ["spec", "template", "spec", "providerID"] =
      some .null := by
  have there : templatedSolo.at? ["spec"] = some (.object templatedSpec) := rfl
  have read : Scalable.ofJson? templatedSolo = some solo := rfl
  have counted : ¬ ∃ fields, templatedSolo.at? countPath = some (.object fields) := by
    rintro ⟨fields, count⟩
    cases count
  obtain ⟨-, raw, -⟩ := replicasPatch_sets_count_alone
  obtain ⟨-, -, kept, same⟩ := raw templatedSolo templatedSpec 5 there
  have notAbove : ¬ ["spec", "template", "spec", "providerID"] <+: countPath := by decide
  refine ⟨there, read, same .machineSet solo read, notAbove, ?_⟩
  exact kept _ notAbove fun inside => absurd inside counted

end Lab
end NodeGroups
