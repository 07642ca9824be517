import Mathlib.Data.List.TakeWhile
import NodeGroups.Sync

/-!
# The paths of lists

A list is asked for under the path of its collection, which is put together from names as they
are. Where all characters of the names can be in a path (`Uri.CanBePath`) the server is asked for
just that path, up to the longest URI there can be. In any other case no list is asked for under
it: what is asked for, if anything, is a path that has such characters only.
-/
namespace NodeGroups

namespace Uri

/-- All characters of the text can be in a path. -/
def CanBePath (text : String) : Prop := text.toList.all isPathChar = true

instance (text : String) : Decidable (CanBePath text) := inferInstanceAs (Decidable (_ = true))

theorem canBePath_append {a b : String} : CanBePath (a ++ b) ↔ CanBePath a ∧ CanBePath b := by
  rw [CanBePath, CanBePath, CanBePath, String.toList_append, List.all_append, Bool.and_eq_true]

theorem isPathChar_ne {c : Char} (h : isPathChar c = true) : (c != '?' && c != '#') = true := by
  have question : isPathChar '?' = false := by decide
  have hash : isPathChar '#' = false := by decide
  rw [Bool.and_eq_true, bne_iff_ne, bne_iff_ne]
  constructor
  · rintro rfl
    rw [question] at h
    cases h
  · rintro rfl
    rw [hash] at h
    cases h

/-- The first question mark ends a path. -/
theorem splitPath_of_plain {path query : List Char} (plain : path.all isPathChar = true)
    (whole : query.takeWhile (fun c => c != '#') = query) (asked : query.all isQueryChar = true) :
    splitPath (path ++ '?' :: query) = .ok (path, some query) := by
  have ends : ∀ c ∈ path, (c != '?' && c != '#') = true := fun c hc =>
    isPathChar_ne (List.all_eq_true.mp plain c hc)
  have taken : (path ++ '?' :: query).takeWhile (fun c => c != '?' && c != '#') = path := by
    rw [List.takeWhile_append_of_pos ends]
    simp
  have left : (path ++ '?' :: query).dropWhile (fun c => c != '?' && c != '#') = '?' :: query := by
    rw [List.dropWhile_append_of_pos ends]
    simp
  simp only [splitPath, taken, left, whole, plain, asked, Bool.not_true]
  rfl

theorem plain_of_splitPath {cs : List Char} {parts : List Char × Option (List Char)}
    (h : splitPath cs = .ok parts) : parts.1.all isPathChar = true := by
  rw [splitPath] at h
  split at h
  · cases h
  · next plain =>
    rw [Bool.not_eq_true', Bool.not_eq_false] at plain
    split at h
    · dsimp only at h
      split at h
      · cases h
        exact plain
      · cases h
    · cases h
      exact plain

theorem parse_of_rooted {text : String} {rest : List Char} (rooted : text.toList = '/' :: rest)
    (fits : text.utf8ByteSize ≤ longest) : parse text = withPath none [] text.toList := by
  rw [parse, if_neg (Nat.not_lt.mpr fits), rooted]
  rfl

/-- Of a text with a slash first, what is taken for the path can be one. -/
theorem canBePath_of_parse {text : String} {rest : List Char}
    (rooted : text.toList = '/' :: rest) {u : Uri} (h : parse text = .ok u) :
    CanBePath u.path := by
  by_cases fits : text.utf8ByteSize ≤ longest
  · rw [parse_of_rooted rooted fits, withPath] at h
    cases split : splitPath text.toList with
    | error fault =>
      rw [split] at h
      cases h
    | ok parts =>
      rw [split] at h
      cases h
      rw [CanBePath, String.toList_ofList]
      exact plain_of_splitPath split
  · rw [parse, if_pos (Nat.lt_of_not_le fits)] at h
    cases h

end Uri

/-! ## One collection -/

/-- A text with a slash first that can be a path. -/
structure IsPath (text : String) : Prop where
  rooted : ∃ rest, text.toList = '/' :: rest
  plain : Uri.CanBePath text

/-- Whether a list can be asked for under the text as far as its length goes. -/
def FitsUri (text : String) : Prop := (text ++ "?&limit=500").utf8ByteSize ≤ Uri.longest

instance (text : String) : Decidable (FitsUri text) := inferInstanceAs (Decidable (_ ≤ _))

theorem listUri_of_not_fits {text : String} (long : ¬ FitsUri text) :
    listUri text = .error .tooLong := by
  rw [listUri, Uri.parse, if_pos (Nat.lt_of_not_le long)]

namespace IsPath

variable {text : String} (h : IsPath text)

include h

theorem append {more : String} (plain : Uri.CanBePath more) : IsPath (text ++ more) := by
  obtain ⟨rest, rooted⟩ := h.rooted
  refine ⟨⟨rest ++ more.toList, ?_⟩, Uri.canBePath_append.mpr ⟨h.plain, plain⟩⟩
  rw [String.toList_append, rooted]
  rfl

theorem listUri_of_fits (fits : FitsUri text) :
    listUri text = .ok ⟨none, "", text, some "&limit=500"⟩ := by
  obtain ⟨rest, rooted⟩ := h.rooted
  have chars : (text ++ "?&limit=500").toList = text.toList ++ '?' :: "&limit=500".toList := by
    rw [String.toList_append]
    rfl
  have first : (text ++ "?&limit=500").toList = '/' :: (rest ++ '?' :: "&limit=500".toList) := by
    rw [chars, rooted]
    rfl
  have split : Uri.splitPath (text.toList ++ '?' :: "&limit=500".toList) =
      .ok (text.toList, some "&limit=500".toList) :=
    Uri.splitPath_of_plain h.plain rfl rfl
  rw [listUri, Uri.parse_of_rooted first fits, Uri.withPath, chars, split]
  simp only [Except.map, Option.map, String.ofList_toList]

theorem feed_of_fits (server : ApiServer) (fits : FitsUri text) :
    server.feed text = server text := by
  rw [ApiServer.feed, h.listUri_of_fits fits]

end IsPath

/-! ## The four collections -/

theorem collectionPath_rooted (α : Type) [Resource α] (ns : Option String) :
    ∃ rest, (collectionPath α ns).toList = '/' :: rest := by
  simp only [collectionPath, String.toList_append, List.append_assoc]
  split
  · exact ⟨_, rfl⟩
  · exact ⟨_, rfl⟩

theorem collectionPath_isPath {α : Type} [Resource α] {ns : Option String}
    (version : Uri.CanBePath (Resource.apiVersion α)) (plural : Uri.CanBePath (Resource.plural α))
    (plain : ∀ n, ns = some n → Uri.CanBePath n) : IsPath (collectionPath α ns) := by
  have base : IsPath
      (if (Resource.apiVersion α).toList.contains '/' then "/apis/" else "/api/") := by
    split
    · exact ⟨⟨_, rfl⟩, rfl⟩
    · exact ⟨⟨_, rfl⟩, rfl⟩
  have slash : Uri.CanBePath "/" := rfl
  cases ns with
  | none => exact ((base.append version).append slash).append plural
  | some n =>
    have inside : Uri.CanBePath "/namespaces/" := rfl
    have scope : Uri.CanBePath ("/namespaces/" ++ n ++ "/") :=
      Uri.canBePath_append.mpr ⟨Uri.canBePath_append.mpr ⟨inside, plain n rfl⟩, slash⟩
    exact ((base.append version).append scope).append plural

/-- The namespace, if one is set, can be in a path. -/
def Settings.Plain (s : Settings) : Prop := ∀ ns, s.ns = some ns → Uri.CanBePath ns

theorem nodesPath_isPath : IsPath (collectionPath Node none) :=
  collectionPath_isPath rfl rfl (by simp)

theorem nodesPath_fits : FitsUri (collectionPath Node none) := by decide

namespace Settings

variable {s : Settings}

theorem isPath_of_plain (plain : s.Plain) {path : String} (h : path ∈ s.collections) :
    IsPath path := by
  rw [collections] at h
  simp only [List.mem_cons, List.not_mem_nil, or_false] at h
  rcases h with rfl | rfl | rfl | rfl
  · exact nodesPath_isPath
  · exact collectionPath_isPath rfl rfl plain
  · exact collectionPath_isPath rfl rfl plain
  · exact collectionPath_isPath rfl rfl plain

theorem mem_listPaths_iff {path : String} : path ∈ s.listPaths ↔
    ∃ collection ∈ s.collections, ∃ uri, listUri collection = .ok uri ∧ uri.path = path := by
  simp only [listPaths, List.mem_mergeSort, List.mem_eraseDups, List.mem_filterMap]
  refine exists_congr fun collection => and_congr_right fun _ => ?_
  cases listUri collection with
  | error fault => simp [Except.toOption]
  | ok uri => simp [Except.toOption]

theorem mem_listPaths_of_isPath {path : String} (mem : path ∈ s.collections) (h : IsPath path)
    (fits : FitsUri path) : path ∈ s.listPaths :=
  mem_listPaths_iff.mpr ⟨path, mem, _, h.listUri_of_fits fits, rfl⟩

/-- No list is asked for under what cannot be a path. -/
theorem canBePath_of_mem_listPaths {path : String} (h : path ∈ s.listPaths) :
    Uri.CanBePath path := by
  obtain ⟨collection, mem, uri, asked, rfl⟩ := mem_listPaths_iff.mp h
  have rooted : ∃ rest, collection.toList = '/' :: rest := by
    rw [collections] at mem
    simp only [List.mem_cons, List.not_mem_nil, or_false] at mem
    rcases mem with rfl | rfl | rfl | rfl
    all_goals exact collectionPath_rooted _ _
  obtain ⟨rest, first⟩ := rooted
  have whole : (collection ++ "?&limit=500").toList = '/' :: (rest ++ "?&limit=500".toList) := by
    rw [String.toList_append, first]
    rfl
  exact Uri.canBePath_of_parse whole asked

theorem mem_listPaths_of_plain (plain : s.Plain) {path : String} :
    path ∈ s.listPaths ↔ path ∈ s.collections ∧ FitsUri path := by
  constructor
  · intro h
    obtain ⟨collection, mem, uri, asked, rfl⟩ := mem_listPaths_iff.mp h
    by_cases fits : FitsUri collection
    · cases ((isPath_of_plain plain mem).listUri_of_fits fits).symm.trans asked
      exact ⟨mem, fits⟩
    · cases (listUri_of_not_fits fits).symm.trans asked
  · rintro ⟨mem, fits⟩
    exact mem_listPaths_of_isPath mem (isPath_of_plain plain mem) fits

end Settings
end NodeGroups
