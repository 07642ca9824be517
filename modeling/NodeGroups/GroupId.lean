import NodeGroups.Object.Kinds

/-!
# Node group identifiers

A node group is named by the kind, namespace and name of the object that declares its size,
written with slashes between them. Reading wants exactly three parts, neither of the last two
empty, and a kind whose size can be set.
-/
namespace NodeGroups

structure GroupId where
  kind : ScalableKind
  ns : String
  name : String
deriving DecidableEq, Repr

/-- Reads the name of a kind. -/
def ScalableKind.parse (source : String) : Except Error ScalableKind :=
  match ScalableKind.ofText? source with
  | some kind => .ok kind
  | none => .error (KeyFault.kind.about source)

namespace GroupId

def text (id : GroupId) : String := id.kind.text ++ "/" ++ id.ns ++ "/" ++ id.name

def parse (source : String) : Except Error GroupId :=
  match Text.segments source.toList with
  | [kind, ns, name] =>
    if ns = [] ∨ name = [] then .error (KeyFault.groupPartEmpty.about source)
    else match ScalableKind.ofText? (String.ofList kind) with
      | none => .error (KeyFault.groupKind.about source)
      | some kind => .ok ⟨kind, String.ofList ns, String.ofList name⟩
  | _ => .error (KeyFault.groupShape.about source)

/-- The identifier of a named object; an absent namespace is the empty one. -/
def ofMetadata (kind : ScalableKind) (m : Metadata) : Except Error GroupId :=
  m.key.map fun key => ⟨kind, key.ns, key.name⟩

/-- MachineSets first, then namespace, then name, both by code point. -/
def le (a b : GroupId) : Bool :=
  match a.kind, b.kind with
  | .machineSet, .machineDeployment => true
  | .machineDeployment, .machineSet => false
  | _, _ => ObjectKey.le ⟨a.ns, a.name⟩ ⟨b.ns, b.name⟩

end GroupId
end NodeGroups
