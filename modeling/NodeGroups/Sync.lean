import NodeGroups.Cluster
import NodeGroups.Object.Coding
import NodeGroups.Server
import NodeGroups.Settings
import NodeGroups.Store

/-!
# Filling the caches from the API server

Each kind is listed once and then followed by its events. The caches are there only when all
four kinds have been listed; a list that is refused, silent or unreadable, or that cannot even
be asked for, is tried again until the time is up. An object without a name stops its kind for
good: among the listed objects it fails the start at once, whatever the other kinds do, and
among the later events it leaves the cache of its kind as it was.
-/
namespace NodeGroups

/-- How the server answers the request for a list. -/
inductive ListAnswer where
  | items (objects : List Json)
  | refused
  | silent
deriving Repr

inductive WatchEvent where
  | added (object : Json)
  | modified (object : Json)
  | deleted (object : Json)
  | bookmark
deriving Repr

/-- The behaviour of the server for one collection. -/
structure Feed where
  list : ListAnswer
  events : List WatchEvent
deriving Repr

/-- What a server has under each path. -/
abbrev ApiServer := String → Feed

/-- The URI that a list of the collection is asked for by. -/
def listUri (collection : String) : Except UriFault Uri := Uri.parse (collection ++ "?&limit=500")

/-- What a server has of a collection; one that cannot be asked for is never given. -/
def ApiServer.feed (server : ApiServer) (collection : String) : Feed :=
  match listUri collection with
  | .error _ => ⟨.refused, []⟩
  | .ok uri => server uri.path

/-- Why the caches could not be filled. -/
inductive SyncFault where
  | stopped
  | timedOut (limit : Timespan)
deriving DecidableEq, Repr

def SyncFault.message : SyncFault → String
  | .stopped =>
    "reflector stopped before initial sync: writer was dropped before store became ready"
  | .timedOut limit => "timed out after " ++ limit.text ++ " waiting for initial sync"

def SyncFault.error (fault : SyncFault) : Error := .internal "cache" fault.message

/-- How far one kind gets before its events. -/
inductive Listing (α : Type) where
  | ready (cache : Cache α)
  | pending
  | stopped
deriving Repr

section
variable {α : Type} [Resource α]

/-- The objects inserted in order, if each has a name. -/
def fill (c : Cache α) : List α → Option (Cache α)
  | [] => some c
  | a :: rest =>
    match c.apply a with
    | .error _ => none
    | .ok next => fill next rest

variable [Coded α]

def ListAnswer.listing : ListAnswer → Listing α
  | .items objects =>
    match Json.every Coded.ofJson? objects with
    | none => .pending
    | some read =>
      match fill (Cache.empty .exact) read with
      | none => .stopped
      | some cache => .ready cache
  | .refused | .silent => .pending

/-- The event as it concerns objects of the kind; one that cannot be read concerns none. -/
def WatchEvent.read : WatchEvent → Option (StoreEvent α)
  | .added object | .modified object => (Coded.ofJson? object).map .apply
  | .deleted object => (Coded.ofJson? object).map .delete
  | .bookmark => none

/-- The cache after the events up to the first with an object that has no name. -/
def follow (c : Cache α) : List WatchEvent → Cache α
  | [] => c
  | event :: rest =>
    match (event.read : Option (StoreEvent α)) with
    | some (.apply a) =>
      match c.apply a with
      | .error _ => c
      | .ok next => follow next rest
    | some (.delete a) =>
      match c.keyOf a with
      | none => c
      | some key => follow (c.remove key) rest
    | _ => follow c rest

end

namespace Listing

variable {α : Type}

def isStopped : Listing α → Bool
  | stopped => true
  | _ => false

end Listing

/-- The caches of a server, filled under the settings and followed through all its events. -/
def Cluster.start (server : ApiServer) (s : Settings) : Except Error Cluster :=
  let nodeFeed := server.feed (collectionPath Node none)
  let machineFeed := server.feed (collectionPath Machine s.ns)
  let setFeed := server.feed (collectionPath MachineSet s.ns)
  let deploymentFeed := server.feed (collectionPath MachineDeployment s.ns)
  let nodes : Listing Node := nodeFeed.list.listing
  let machines : Listing Machine := machineFeed.list.listing
  let machineSets : Listing MachineSet := setFeed.list.listing
  let machineDeployments : Listing MachineDeployment := deploymentFeed.list.listing
  if s.syncTimeout.nanos = 0 then .error (SyncFault.timedOut s.syncTimeout).error
  else if nodes.isStopped ∨ machines.isStopped ∨ machineSets.isStopped ∨
      machineDeployments.isStopped then
    .error SyncFault.stopped.error
  else match nodes, machines, machineSets, machineDeployments with
    | .ready n, .ready m, .ready ms, .ready md =>
      .ok {
        nodes := follow n nodeFeed.events
        machines := follow m machineFeed.events
        machineSets := follow ms setFeed.events
        machineDeployments := follow md deploymentFeed.events }
    | _, _, _, _ => .error (SyncFault.timedOut s.syncTimeout).error

/-- The collections that filling the caches lists. -/
def Settings.collections (s : Settings) : List String :=
  [collectionPath Node none, collectionPath Machine s.ns, collectionPath MachineSet s.ns,
    collectionPath MachineDeployment s.ns]

/-- The paths that their lists are asked for under, each once and in order of their text. -/
def Settings.listPaths (s : Settings) : List String :=
  let paths := s.collections.filterMap fun c => ((listUri c).toOption).map Uri.path
  paths.eraseDups.mergeSort fun a b => decide (a ≤ b)

/-- Whether an object that is not read yet states the namespace. -/
def statesNamespace (ns : String) (object : Json) : Bool :=
  (object.at? ["metadata", "namespace"]).bind Json.asText? == some ns

/-- The plural that a path ends in, and the namespace that it names. -/
def collectionAt (path : String) : String × Option String :=
  let parts := (Text.segments path.toList).map String.ofList
  (parts.getLast?.getD "", (parts.dropWhile fun part => part != "namespaces").tail.head?)

/-- A server that holds the objects under their plurals, lists those of the namespace asked
for, and has no events. -/
def ApiServer.holding (objects : String → List Json) : ApiServer := fun path =>
  match collectionAt path with
  | (plural, none) => ⟨.items (objects plural), []⟩
  | (plural, some ns) => ⟨.items ((objects plural).filter (statesNamespace ns)), []⟩

end NodeGroups
