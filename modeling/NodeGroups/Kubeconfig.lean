import NodeGroups.Error
import NodeGroups.Json.Field
import NodeGroups.Uri

/-!
# Connecting by a kubeconfig

A kubeconfig names contexts, each of which pairs a cluster with a user and may give a default
namespace. The current context is followed to its cluster, whose server must be a URI, and so
must its proxy be if it has one; but proxies are not spoken to here. Of entries with one name
the first counts; a user that is not there is no fault. No connection is made.
-/
namespace NodeGroups

/-- Why a kubeconfig cannot be read. -/
inductive KubeconfigFault where
  | missingFile (path : String)
  | noCurrentContext
  | unknownContext (name : String)
  | unknownCluster (name : String)
  | noServer
  | badServer (fault : UriFault)
  | badProxy (fault : UriFault)
deriving DecidableEq, Repr

def KubeconfigFault.message : KubeconfigFault → String
  | .missingFile path =>
    "failed to read kubeconfig from '" ++ Text.quoted path ++
      "': No such file or directory (os error 2)"
  | .noCurrentContext => "failed to determine current context"
  | .unknownContext name => "failed to load current context: " ++ name
  | .unknownCluster name => "failed to load the cluster of context: " ++ name
  | .noServer => "cluster url is missing on selected cluster"
  | .badServer fault => "failed to parse cluster url: " ++ fault.message
  | .badProxy fault => "failed to parse proxy url: " ++ fault.message

/-- What a connection needs of a kubeconfig. -/
structure Connection where
  server : Uri
  proxy : Option Uri
  defaultNamespace : String
deriving DecidableEq, Repr

namespace Kubeconfig

/-- The body of the first entry with the name in a list of named entries. -/
def entry? (list body name : String) (document : Json) : Option Json :=
  let entries := ((document.member? list).bind Json.asArray?).getD []
  match entries.find? fun e => (e.member? "name").bind Json.asText? == some name with
  | none => none
  | some e =>
    match e.member? body with
    | none => none
    | some .null => none
    | some found => some found

def textField? (name : String) (j : Json) : Option String :=
  (j.member? name).bind Json.asText?

/-- The proxy of a cluster; an empty one is none. -/
def proxy? (cluster : Json) : Except KubeconfigFault (Option Uri) :=
  match (textField? "proxy-url" cluster).filter fun url => url ≠ "" with
  | none => .ok none
  | some url => ((Uri.parse url).mapError .badProxy).map some

/-- The connection that a kubeconfig document describes. -/
def connection (document : Json) : Except KubeconfigFault Connection :=
  match textField? "current-context" document with
  | none => .error .noCurrentContext
  | some current =>
    match entry? "contexts" "context" current document with
    | none => .error (.unknownContext current)
    | some context =>
      let cluster := (textField? "cluster" context).getD ""
      match entry? "clusters" "cluster" cluster document with
      | none => .error (.unknownCluster cluster)
      | some found =>
        match textField? "server" found with
        | none => .error .noServer
        | some server =>
          match Uri.parse server, proxy? found with
          | .error fault, _ => .error (.badServer fault)
          | _, .error fault => .error fault
          | .ok server, .ok proxy =>
            .ok ⟨server, proxy, (textField? "namespace" context).getD "default"⟩

end Kubeconfig

/-- Why no connection comes about. -/
inductive ConnectFault where
  | unread (fault : KubeconfigFault)
  | unusable (fault : KubeconfigFault)
  /-- Neither the surroundings of a cluster nor a kubeconfig tell where the server is. -/
  | notInferred (fault : KubeconfigFault)
  | proxyDisabled (proxy : Uri) (feature : String)
  | proxyUnsupported (proxy : Uri)
deriving DecidableEq, Repr

def ConnectFault.message : ConnectFault → String
  | .unread fault => "failed to read kubeconfig: " ++ fault.message
  | .unusable fault => "failed to load kubeconfig: " ++ fault.message
  | .notInferred fault =>
    "failed to infer config: failed to infer config: in-cluster: (failed to read an " ++
      "incluster environment variable: environment variable not found), kubeconfig: (" ++
      fault.message ++ ")"
  | .proxyDisabled proxy feature =>
    "failed to create client: configured proxy " ++ proxy.text ++
      " requires the disabled feature " ++ Text.quoted feature
  | .proxyUnsupported proxy =>
    "failed to create client: configured proxy " ++ proxy.text ++ " uses an unsupported protocol"

def ConnectFault.error (fault : ConnectFault) : Error := .internal "create_client" fault.message

/-- Proxies are not spoken to: a connection must be direct. -/
def Connection.direct (c : Connection) : Except ConnectFault Unit :=
  match c.proxy with
  | none => .ok ()
  | some proxy =>
    if proxy.scheme = some "socks5" then .error (.proxyDisabled proxy "kube/socks5")
    else if proxy.scheme = some "http" then .error (.proxyDisabled proxy "kube/http-proxy")
    else .error (.proxyUnsupported proxy)

/-- Connects by the kubeconfig at a path, given what the file holds if it is there. With
`infer` the path was found in the environment, and only the search as a whole can fail. -/
def connect (infer : Bool) (path : String) (file : Option Json) :
    Except ConnectFault Connection :=
  match file with
  | none =>
    let fault := KubeconfigFault.missingFile path
    .error (if infer then .notInferred fault else .unread fault)
  | some document =>
    match Kubeconfig.connection document with
    | .error fault => .error (if infer then .notInferred fault else .unusable fault)
    | .ok connection => connection.direct.map fun _ => connection

end NodeGroups
