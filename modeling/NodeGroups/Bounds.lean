import NodeGroups.Error
import NodeGroups.Object.Metadata

/-!
# Scaling bounds

The smallest and the largest size of a node group are declared by two annotations. Without
both there are no bounds, which is no fault. With both, each must be an integer of 32 bits
without a plus sign, the smallest size at least zero and the largest no less than the
smallest; the fault found first in this order is the one reported.
-/
namespace NodeGroups

def minSizeEntry : String := "cluster.x-k8s.io/cluster-api-autoscaler-node-group-min-size"

def maxSizeEntry : String := "cluster.x-k8s.io/cluster-api-autoscaler-node-group-max-size"

/-- Why the annotations declare no usable bounds. -/
inductive BoundsFault where
  | plusSign (value : String)
  | unreadable (value : String) (fault : Text.NumberFault)
  | negative (min : Int32)
  | inverted (min max : Int32)
deriving DecidableEq, Repr

def BoundsFault.message : BoundsFault → String
  | .plusSign value => "invalid value " ++ Text.quoted value ++ ": unexpected sign"
  | .unreadable value fault => "invalid value " ++ Text.quoted value ++ ": " ++ fault.message
  | .negative min => "minimum size must be >= 0, got " ++ Text.decimal32 min
  | .inverted min max =>
    "maximum size " ++ Text.decimal32 max ++ " is below minimum size " ++ Text.decimal32 min

structure Bounds where
  min : Int32
  max : Int32
deriving DecidableEq, Repr

namespace Bounds

/-- Whether the size can be changed at all. -/
def hasRoom (b : Bounds) : Bool := b.min < b.max

def contains (b : Bounds) (n : Int32) : Bool := b.min ≤ n && n ≤ b.max

/-- A size as an annotation states it. -/
def readSize (value : String) : Except BoundsFault Int32 :=
  if value.toList.head? = some '+' then .error (.plusSign value)
  else match Text.readInt32 value.toList with
    | .error fault => .error (.unreadable value fault)
    | .ok n => .ok n

/-- The bounds that two annotation values declare, or the annotation at fault and why. -/
def ofValues (min max : String) : Except (String × BoundsFault) Bounds :=
  match readSize min, readSize max with
  | .error fault, _ => .error (minSizeEntry, fault)
  | .ok _, .error fault => .error (maxSizeEntry, fault)
  | .ok min, .ok max =>
    if min < 0 then .error (minSizeEntry, .negative min)
    else if max < min then .error (maxSizeEntry, .inverted min max)
    else .ok ⟨min, max⟩

/-- The bounds that annotations declare, if they do; `resource` is named in the error. -/
def ofAnnotations (resource : String) (annotations : StringMap) :
    Except Error (Option Bounds) :=
  match annotations.lookup minSizeEntry, annotations.lookup maxSizeEntry with
  | some min, some max =>
    match ofValues min max with
    | .error (field, fault) => .error (.validation resource (some field) fault.message)
    | .ok bounds => .ok (some bounds)
  | _, _ => .ok none

end Bounds
end NodeGroups
