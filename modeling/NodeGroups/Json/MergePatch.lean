import NodeGroups.Json.Value

/-!
# Merge patches

A server applies a merge patch member by member: a null removes the member, an object is
merged into what is there, and anything else takes its place. A target that is no object
counts as an empty one.
-/
namespace NodeGroups.Json

def members : Json → List (String × Json)
  | object entries => entries
  | _ => []

mutual

def mergePatch (target : Json) : Json → Json
  | .object patch => .object (mergeMembers target.members patch)
  | .null => .null
  | .bool b => .bool b
  | .int n => .int n
  | .binary x => .binary x
  | .text s => .text s
  | .array items => .array items

def mergeMembers (entries : List (String × Json)) :
    List (String × Json) → List (String × Json)
  | [] => entries
  | (name, .null) :: rest => mergeMembers (eraseMember name entries) rest
  | (name, value) :: rest =>
    let old := (entries.lookup name).getD .null
    mergeMembers (setMember name (mergePatch old value) entries) rest

end

end NodeGroups.Json
