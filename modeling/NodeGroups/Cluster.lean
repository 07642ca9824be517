import NodeGroups.Cache

/-!
# The cluster as it is cached

Discovery reads four caches and nothing else.
-/
namespace NodeGroups

structure Cluster where
  nodes : Cache Node
  machines : Cache Machine
  machineSets : Cache MachineSet
  machineDeployments : Cache MachineDeployment
deriving DecidableEq, Repr

namespace Cluster

def empty (keying : Keying) : Cluster :=
  ⟨Cache.empty keying, Cache.empty keying, Cache.empty keying, Cache.empty keying⟩

end Cluster
end NodeGroups
