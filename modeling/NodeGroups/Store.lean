import NodeGroups.Cache

/-!
# Stores that follow a server

A store follows a stream of events. An object that is applied or deleted takes effect at
once. A relist collects objects apart and takes the place of all that is held only when it is
done; until then nothing of it can be seen.
-/
namespace NodeGroups

inductive StoreEvent (α : Type) where
  | apply (object : α)
  | delete (object : α)
  | relist
  | relisted (object : α)
  | relistDone
deriving Repr

structure Store (α : Type) where
  held : Cache α
  collected : Cache α
deriving Repr

namespace Store

variable {α : Type} [Resource α]

def empty (keying : Keying) : Store α := ⟨Cache.empty keying, Cache.empty keying⟩

def step (s : Store α) : StoreEvent α → Except Error (Store α)
  | .apply a => (s.held.apply a).map fun c => { s with held := c }
  | .delete a => .ok { s with held := s.held.forget a }
  | .relist => .ok { s with collected := Cache.empty s.collected.keying }
  | .relisted a => (s.collected.apply a).map fun c => { s with collected := c }
  | .relistDone => .ok ⟨s.collected, Cache.empty s.collected.keying⟩

end Store
end NodeGroups
