import NodeGroups.Json.Field
import NodeGroups.Json.Printer
import NodeGroups.Object.Fit
import NodeGroups.Resize
import NodeGroups.Uri

/-!
# Talking to the API server

Collections are under a path that names the version of the API, the namespace if one is asked
for, and the plural of the kind. Paths are put together from names as they are, so what is
asked for is what the text says as a URI: a question mark or a hash in a name ends the path, and
a character that no URI has means that nothing is asked at all. A resize is a merge patch of one
field of one object. An answer with an error status carries the failure in its body; a body
that does not is shown as it came.
-/
namespace NodeGroups

/-- The path of all objects of a kind, or of those in one namespace. -/
def collectionPath (α : Type) [Resource α] (ns : Option String) : String :=
  let version := Resource.apiVersion α
  let base := if version.toList.contains '/' then "/apis/" else "/api/"
  let scope := match ns with
    | none => "/"
    | some ns => "/namespaces/" ++ ns ++ "/"
  base ++ version ++ scope ++ Resource.plural α

structure Request where
  method : String
  path : String
  query : String
  contentType : String
  body : Json
deriving Repr

/-- Who the server is told makes the changes. -/
def fieldManager : String := "lattice-autoscaler"

/-- The merge patch that sets a replica count. -/
def replicasPatch (n : Int32) : Json :=
  .object [("spec", .object [("replicas", .int n.toInt)])]

def collectionOf (kind : ScalableKind) (ns : Option String) : String :=
  match kind with
  | .machineSet => collectionPath MachineSet ns
  | .machineDeployment => collectionPath MachineDeployment ns

def Resize.request (r : Resize) : Except UriFault Request :=
  let path := collectionOf r.group.kind (some r.group.ns) ++ "/" ++ r.group.name
  (Uri.parse (path ++ "?&fieldManager=" ++ fieldManager)).map fun uri => {
    method := "PATCH"
    path := uri.path
    query := uri.query.getD ""
    contentType := "application/merge-patch+json"
    body := replicasPatch r.replicas }

/-- The body is sent without blanks and with members in the order of their names. -/
structure Answer where
  status : Nat
  body : Json
deriving Repr

/-- The text of the body. -/
def Answer.text (a : Answer) : String := a.body.sorted.compact

/-- The registered phrases of the error statuses. -/
def statusPhrase? (status : Nat) : Option String :=
  [(400, "Bad Request"), (401, "Unauthorized"), (402, "Payment Required"),
    (403, "Forbidden"), (404, "Not Found"), (405, "Method Not Allowed"),
    (406, "Not Acceptable"), (407, "Proxy Authentication Required"),
    (408, "Request Timeout"), (409, "Conflict"), (410, "Gone"), (411, "Length Required"),
    (412, "Precondition Failed"), (413, "Payload Too Large"), (414, "URI Too Long"),
    (415, "Unsupported Media Type"), (416, "Range Not Satisfiable"),
    (417, "Expectation Failed"), (418, "I'm a teapot"), (421, "Misdirected Request"),
    (422, "Unprocessable Entity"), (423, "Locked"), (424, "Failed Dependency"),
    (425, "Too Early"), (426, "Upgrade Required"), (428, "Precondition Required"),
    (429, "Too Many Requests"), (431, "Request Header Fields Too Large"),
    (451, "Unavailable For Legal Reasons"), (500, "Internal Server Error"),
    (501, "Not Implemented"), (502, "Bad Gateway"), (503, "Service Unavailable"),
    (504, "Gateway Timeout"), (505, "HTTP Version Not Supported"),
    (506, "Variant Also Negotiates"), (507, "Insufficient Storage"), (508, "Loop Detected"),
    (510, "Not Extended"), (511, "Network Authentication Required")].lookup status

namespace ApiFailure

/-- A code is a word of 16 bits. -/
def code? : Json → Option Nat
  | .int n => if 0 ≤ n ∧ n < UInt16.size then some n.toNat else none
  | _ => none

def ofJson? (j : Json) : Option ApiFailure := do
  let j ← j.asRecord? ["status", "message", "reason", "code"] 4
  return {
    status := ← j.required? Json.asText? "status"
    message := ← j.defaulted? Json.asText? "" "message"
    reason := ← j.defaulted? Json.asText? "" "reason"
    code := ← j.required? code? "code" }

/-- The failure that an error answer reports, or one that shows its body. -/
def ofAnswer (a : Answer) : ApiFailure :=
  (ofJson? a.body).getD {
    status :=
      Text.decimal a.status ++ " " ++ (statusPhrase? a.status).getD "<unknown status code>"
    message := Text.quoted a.text
    reason := "Failed to parse error data"
    code := a.status }

end ApiFailure

/-- The error of an answer that does not hold what was asked for. -/
def Json.Misfit.error (m : Json.Misfit) : Error :=
  .transport ("Error deserializing response: " ++ m.message)

/-- The error of a request that cannot be put together. -/
def UriFault.error (fault : UriFault) : Error :=
  .transport ("Failed to build request: failed to build request: " ++ fault.message)

/-- An error status is a failure; any other answer must hold the patched object. -/
def Answer.patched (a : Answer) (kind : ScalableKind) : Except Error Unit :=
  if 400 ≤ a.status ∧ a.status < 600 then .error (.api (ApiFailure.ofAnswer a))
  else match Json.misfit? kind.fit a.body.sorted with
    | some misfit => .error misfit.error
    | none => .ok ()

/-- The scaler that sends each resize to a server and keeps the requests it has sent. -/
def serverScaler (respond : Request → Answer) : Scaler (List Request) := fun r sent =>
  match r.request with
  | .error fault => (.error fault.error, sent)
  | .ok request => ((respond request).patched r.group.kind, sent ++ [request])

end NodeGroups
