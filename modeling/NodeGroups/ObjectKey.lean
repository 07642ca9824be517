import NodeGroups.Error
import NodeGroups.Text.Segments

/-!
# Namespaced keys

A key names an object by namespace and name and is written `namespace/name`, or `name` alone
when the namespace is empty. Reading accepts one slash at most and wants a name; a text that
starts with its slash gives the empty namespace.
-/
namespace NodeGroups

/-- Why a text or an object yields no key. -/
inductive KeyFault where
  | shape
  | noName
  | unnamedObject
  | groupShape
  | groupPartEmpty
  | groupKind
  | kind
deriving DecidableEq, Repr

def KeyFault.message : KeyFault → String
  | .shape => "expected \"namespace/name\" or \"name\""
  | .noName => "name must not be empty"
  | .unnamedObject => "object has no name"
  | .groupShape => "expected \"Kind/namespace/name\""
  | .groupPartEmpty => "namespace and name must not be empty"
  | .groupKind => "expected MachineSet or MachineDeployment kind"
  | .kind => "expected MachineSet or MachineDeployment"

/-- The error about a key, which it carries as it was given. -/
def KeyFault.about (fault : KeyFault) (key : String) : Error := .invalidKey key fault.message

structure ObjectKey where
  ns : String
  name : String
deriving DecidableEq, Repr

namespace ObjectKey

def text (key : ObjectKey) : String :=
  if key.ns = "" then key.name else key.ns ++ "/" ++ key.name

/-- The namespace, none when it is empty. -/
def ns? (key : ObjectKey) : Option String := if key.ns = "" then none else some key.ns

def named (source : String) (ns name : List Char) : Except Error ObjectKey :=
  if name = [] then .error (KeyFault.noName.about source)
  else .ok ⟨String.ofList ns, String.ofList name⟩

def parse (source : String) : Except Error ObjectKey :=
  match Text.segments source.toList with
  | [name] => named source [] name
  | [ns, name] => named source ns name
  | _ => .error (KeyFault.shape.about source)

/-- Namespace first, then name, both by code point. -/
def le (a b : ObjectKey) : Bool := a.ns < b.ns || (a.ns = b.ns && a.name ≤ b.name)

end ObjectKey
end NodeGroups
