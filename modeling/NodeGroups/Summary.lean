import NodeGroups.Group
import NodeGroups.Json.Field
import NodeGroups.Json.Parser
import NodeGroups.Json.Printer

/-!
# Summaries of node groups

A summary is what is shown of a group: its identifier and the parts of it, the three sizes
and the members. It is written as a line of text with a line for each member, or as JSON, and
a JSON document of summaries can be read back.
-/
namespace NodeGroups

structure Summary where
  id : String
  kind : ScalableKind
  ns : String
  name : String
  minSize : Int32
  maxSize : Int32
  size : Int32
  members : List Instance
deriving DecidableEq, Repr

def NodeGroup.summary (g : NodeGroup) (c : Cluster) : Summary where
  id := g.id.text
  kind := g.id.kind
  ns := g.id.ns
  name := g.id.name
  minSize := g.minSize
  maxSize := g.maxSize
  size := g.size
  members := g.members c

namespace Instance

def toJson (i : Instance) : Json :=
  .object (("id", .text i.id) :: Json.memberOf .text "node_name" i.nodeName)

def ofJson? (j : Json) : Option Instance := do
  return {
    id := ← j.required? Json.asText? "id"
    nodeName := ← j.optional? Json.asText? "node_name" }

def line (i : Instance) : String :=
  match i.nodeName with
  | none => "  " ++ i.id
  | some name => "  " ++ i.id ++ " (" ++ name ++ ")"

end Instance

namespace Summary

def toJson (s : Summary) : Json :=
  .object [("id", .text s.id), ("kind", .text s.kind.text), ("namespace", .text s.ns),
    ("name", .text s.name), ("minSize", .int s.minSize.toInt), ("maxSize", .int s.maxSize.toInt),
    ("size", .int s.size.toInt), ("members", .array (s.members.map Instance.toJson))]

def ofJson? (j : Json) : Option Summary := do
  return {
    id := ← j.required? Json.asText? "id"
    kind := ← j.required? (fun k => k.asText?.bind ScalableKind.ofText?) "kind"
    ns := ← j.required? Json.asText? "namespace"
    name := ← j.required? Json.asText? "name"
    minSize := ← j.required? Json.asInt32? "minSize"
    maxSize := ← j.required? Json.asInt32? "maxSize"
    size := ← j.required? Json.asInt32? "size"
    members := ← j.required? (Json.asListOf? Instance.ofJson?) "members" }

def lines (s : Summary) : List String :=
  (s.id ++ " (min: " ++ Text.decimal32 s.minSize ++ ", max: " ++ Text.decimal32 s.maxSize ++
    ", replicas: " ++ Text.decimal32 s.size ++ ", members: " ++
    Text.decimal s.members.length ++ ")") :: s.members.map Instance.line

end Summary

/-- Text with a line feed after each line. -/
def unlines (ls : List String) : String := String.join (ls.map fun l => l ++ "\n")

/-- How summaries are written. -/
inductive Layout where
  | text
  | json
deriving DecidableEq, Repr

def Layout.ofText? (s : String) : Option Layout :=
  if s = "text" then some .text else if s = "json" then some .json else none

def Layout.render (l : Layout) (summaries : List Summary) : String :=
  match l with
  | .text => unlines (summaries.flatMap Summary.lines)
  | .json => (Json.array (summaries.map Summary.toJson)).indented ++ "\n"

/-- The summaries that a JSON document lists. -/
def Summary.listOfText? (s : String) : Option (List Summary) :=
  (Json.parse? s).bind (Json.asListOf? Summary.ofJson?)

end NodeGroups
