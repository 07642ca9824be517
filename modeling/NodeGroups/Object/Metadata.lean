import NodeGroups.ObjectKey

/-!
# Object metadata

What every object of the cluster carries: its name and namespace, the identity given to it at
creation, labels, annotations and references to its owners. Each part may be absent, which is
not the same as empty.
-/
namespace NodeGroups

/-- Names with their values; the first entry of a name counts. -/
abbrev StringMap := List (String × String)

structure OwnerReference where
  apiVersion : String
  kind : String
  name : String
  uid : String
  controller : Option Bool
  blockOwnerDeletion : Option Bool
deriving DecidableEq, Repr

structure Metadata where
  name : Option String
  ns : Option String
  uid : Option String
  generateName : Option String
  generation : Option Int64
  labels : Option StringMap
  annotations : Option StringMap
  ownerReferences : Option (List OwnerReference)
deriving DecidableEq, Repr

namespace Metadata

def empty : Metadata := ⟨none, none, none, none, none, none, none, none⟩

def label? (m : Metadata) (key : String) : Option String := (m.labels.getD []).lookup key

def annotation? (m : Metadata) (key : String) : Option String :=
  (m.annotations.getD []).lookup key

/-- The name, else the stem of a name to be generated, else nothing. -/
def displayName (m : Metadata) : String := (m.name <|> m.generateName).getD ""

/-- The key of a named object; an absent namespace is the empty one. -/
def key (m : Metadata) : Except Error ObjectKey :=
  match m.name with
  | none => .error (KeyFault.unnamedObject.about "")
  | some name =>
    if name = "" then .error (KeyFault.unnamedObject.about "")
    else .ok ⟨m.ns.getD "", name⟩

/-- The key as lists of names show it: an empty namespace keeps its slash. -/
def listedName (m : Metadata) : String :=
  match m.ns with
  | none => m.displayName
  | some ns => ns ++ "/" ++ m.displayName

/-- The first reference to an owner of the kind. -/
def ownerOfKind? (m : Metadata) (kind : String) : Option OwnerReference :=
  (m.ownerReferences.getD []).find? fun reference => reference.kind = kind

end Metadata
end NodeGroups
