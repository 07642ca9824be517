import NodeGroups.Object.Metadata

/-!
# Label selectors

A selector requires values for some labels and is satisfied by the objects that carry all of
them. The requirement made last for a key is the one that counts; without requirements every
object is selected.
-/
namespace NodeGroups

structure Selector where
  required : StringMap
deriving DecidableEq, Repr

namespace Selector

def everything : Selector := ⟨[]⟩

def require (s : Selector) (key value : String) : Selector :=
  ⟨(key, value) :: s.required.filter fun entry => entry.1 != key⟩

def ofList (requirements : StringMap) : Selector :=
  requirements.foldl (fun s entry => s.require entry.1 entry.2) everything

def isEverything (s : Selector) : Bool := s.required.isEmpty

def selects (s : Selector) (labels : StringMap) : Bool :=
  s.required.all fun entry => labels.lookup entry.1 == some entry.2

theorem selects_everything (labels : StringMap) : everything.selects labels = true := rfl

end Selector
end NodeGroups
