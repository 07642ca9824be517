import NodeGroups.Object.Kinds
import NodeGroups.Selector

/-!
# Caches

A cache holds objects of one kind, at most one under a key, in the order in which it lists
them. The key is the namespace and the name, and caches differ in what an empty namespace
means. A folding cache, filled by hand, takes it for no namespace and wants a name that is
not empty; an exact cache, filled from a server, keeps the two apart and takes any name, and as it
cannot tell whether objects of its kind have namespaces, a look in one falls back to the object
of the name that is in none. Reading never fails: what is not there is none. No claim is made
here about the order; the operations below keep it by namespace, absent first, and then by name.
-/
namespace NodeGroups

inductive Keying where
  | folding
  | exact
deriving DecidableEq, Repr

namespace Keying

/-- The namespace as it stands in a key. -/
def place : Keying → Option String → Option String
  | folding, ns => filled ns
  | exact, ns => ns

def place? : Keying → Metadata → Option (Option String × String)
  | folding, m => (filled m.name).map fun name => (filled m.ns, name)
  | exact, m => m.name.map fun name => (m.ns, name)

end Keying

/-- Whether the first namespace and name come before the second. -/
def listedBefore (a b : Metadata) : Bool :=
  match a.ns, b.ns with
  | none, some _ => true
  | some _, none => false
  | none, none => a.name.getD "" < b.name.getD ""
  | some m, some n => m < n || (m = n && a.name.getD "" < b.name.getD "")

structure Cache (α : Type) where
  keying : Keying
  objects : List α
deriving DecidableEq, Repr

namespace Cache

variable {α : Type} [Resource α]

def empty (keying : Keying) : Cache α := ⟨keying, []⟩

def size (c : Cache α) : Nat := c.objects.length

def keyOf (c : Cache α) (a : α) : Option (Option String × String) :=
  c.keying.place? (Resource.metadata a)

/-- The object under exactly this key. -/
def under? (c : Cache α) (key : Option String × String) : Option α :=
  c.objects.find? fun a => c.keyOf a == some key

/-- The object of a namespace and a name; an exact cache that has none answers with the object
of the name that is in no namespace. -/
def get? (c : Cache α) (ns : Option String) (name : String) : Option α :=
  match c.keying with
  | .folding => c.under? (c.keying.place ns, name)
  | .exact => c.under? (ns, name) <|> c.under? (none, name)

/-- Whether a listing restricted to a namespace and a selector has the object. -/
def isSelected (ns : Option String) (selector : Selector) (a : α) : Bool :=
  (match ns with
    | none => true
    | some n => (Resource.metadata a).ns == some n) &&
  selector.selects ((Resource.metadata a).labels.getD [])

def list (c : Cache α) (ns : Option String) (selector : Selector) : List α :=
  c.objects.filter (isSelected ns selector)

/-- All objects of a namespace, or of all. -/
def within (c : Cache α) (ns : Option String) : List α := c.list ns Selector.everything

def remove (c : Cache α) (key : Option String × String) : Cache α :=
  { c with objects := c.objects.filter fun a => c.keyOf a != some key }

def insertInOrder (a : α) : List α → List α
  | [] => [a]
  | b :: rest =>
    if listedBefore (Resource.metadata b) (Resource.metadata a) then b :: insertInOrder a rest
    else a :: b :: rest

/-- Inserts an object, or puts it in the place of the one under its key. -/
def apply (c : Cache α) (a : α) : Except Error (Cache α) :=
  match c.keyOf a with
  | none => .error (KeyFault.unnamedObject.about "")
  | some key => .ok { c with objects := insertInOrder a (c.remove key).objects }

def delete (c : Cache α) (ns : Option String) (name : String) : Cache α :=
  c.remove (c.keying.place ns, name)

/-- What is under a namespace and a name, with the cache that no longer has it. -/
def take (c : Cache α) (ns : Option String) (name : String) : Option α × Cache α :=
  (c.under? (c.keying.place ns, name), c.delete ns name)

/-- Removes the object that has the key of this one, if it has any. -/
def forget (c : Cache α) (a : α) : Cache α :=
  match c.keyOf a with
  | none => c
  | some key => c.remove key

end Cache
end NodeGroups
