import NodeGroups.Json.Misfit
import NodeGroups.Object.Kinds

/-!
# What a scalable object has to look like

The fields of the two scalable kinds and of what they are made of, each with the check that its
value has to pass. They are the fields that `Scalable.ofJson?` reads, and the checks ask of them
what the reader asks; a misfit tells beyond that at which byte of the text reading stops. No law
that ties the two together is stated here.
-/
namespace NodeGroups

open Json

def OwnerReference.fit : Check :=
  objectCheck "OwnerReference"
    [⟨"apiVersion", false, optionalCheck textCheck⟩,
      ⟨"kind", false, optionalCheck textCheck⟩,
      ⟨"name", false, optionalCheck textCheck⟩,
      ⟨"uid", false, optionalCheck textCheck⟩,
      ⟨"controller", false, optionalCheck boolCheck⟩,
      ⟨"blockOwnerDeletion", false, optionalCheck boolCheck⟩]

def Metadata.fit : Check :=
  objectCheck "ObjectMeta"
    [⟨"name", false, optionalCheck textCheck⟩,
      ⟨"namespace", false, optionalCheck textCheck⟩,
      ⟨"uid", false, optionalCheck textCheck⟩,
      ⟨"generateName", false, optionalCheck textCheck⟩,
      ⟨"generation", false, optionalCheck (intCheck 64)⟩,
      ⟨"labels", false, optionalCheck (mapCheck textCheck)⟩,
      ⟨"annotations", false, optionalCheck (mapCheck textCheck)⟩,
      ⟨"ownerReferences", false, optionalCheck (listCheck OwnerReference.fit)⟩]

namespace ScalableKind

def specFit (kind : ScalableKind) : Check :=
  recordCheck (kind.text ++ "Spec")
    [⟨"clusterName", false, textCheck⟩, ⟨"replicas", false, optionalCheck (intCheck 32)⟩]

def fit (kind : ScalableKind) : Check :=
  recordCheck kind.text [⟨"metadata", true, Metadata.fit⟩, ⟨"spec", true, kind.specFit⟩]

end ScalableKind
end NodeGroups
