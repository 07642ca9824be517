import NodeGroups.Proofs.Ledgers
import NodeGroups.Proofs.ListPaths

/-!
# The start

The start ends well when every kind has been listed in full (`ApiServer.Complete`), fails at once
when a list that could be read has an object without a name (`ApiServer.Spoilt`), and otherwise
waits until the time is up. No part of the four caches is given out before all of them are there,
and what one kind does hides nothing of another. Which list a kind gets depends on the path that
it is asked for under.
-/
namespace NodeGroups

/-! ## What a kind gets -/

section
variable (α : Type) [Resource α] [Coded α]

/-- The objects of a list that was answered and can be read. -/
def ListAnswer.decoded? : ListAnswer → Option (List α)
  | .items objects => Json.every Coded.ofJson? objects
  | .refused | .silent => none

/-- The list was answered and can be read, and all its objects have names. -/
def ListAnswer.Complete (answer : ListAnswer) : Prop :=
  ∃ objects, answer.decoded? α = some objects ∧ ∀ a ∈ objects, (Resource.metadata a).name ≠ none

/-- The list was answered and can be read, and one of its objects has no name. -/
def ListAnswer.Spoilt (answer : ListAnswer) : Prop :=
  ∃ objects, answer.decoded? α = some objects ∧ ∃ a ∈ objects, (Resource.metadata a).name = none

/-- What is under each key after the listed objects, in their order, and then the events that
can be read, up to the first one with an object that has no name. -/
def Feed.ledger (feed : Feed) : Ledger α :=
  Ledger.blank.after (((feed.list.decoded? α).getD []).map .apply ++
    (feed.events.filterMap WatchEvent.read).takeWhile StoreEvent.isNamed)

end

theorem Cache.empty_follows {α : Type} [Resource α] :
    (Cache.empty .exact : Cache α).Follows Ledger.blank := ⟨.empty .exact, rfl⟩

namespace ListAnswer

variable {α : Type} [Resource α] [Coded α] {answer : ListAnswer}

theorem listing_of_undecoded (h : answer.decoded? α = none) :
    answer.listing = (Listing.pending : Listing α) := by
  cases answer with
  | items items =>
    have every : Json.every (Coded.ofJson? : Json → Option α) items = none := h
    rw [listing, every]
  | refused => rfl
  | silent => rfl

theorem listing_of_spoilt (h : answer.Spoilt α) :
    answer.listing = (Listing.stopped : Listing α) := by
  obtain ⟨objects, decoded, a, ha, unnamed⟩ := h
  have ended : fill (Cache.empty .exact) objects = none :=
    Cache.empty_follows.fill_unnamed ha (by simp [unnamed])
  cases answer with
  | items items =>
    have every : Json.every Coded.ofJson? items = some objects := decoded
    rw [listing, every]
    dsimp only
    rw [ended]
  | refused => cases decoded
  | silent => cases decoded

theorem listing_of_complete (h : answer.Complete α) : ∃ c : Cache α, answer.listing = .ready c ∧
    c.Follows (Ledger.blank.after (((answer.decoded? α).getD []).map .apply)) := by
  obtain ⟨objects, decoded, named⟩ := h
  have there : ∀ a ∈ objects, (Resource.metadata a).name.isSome := fun a ha =>
    Option.isSome_iff_ne_none.mpr (named a ha)
  obtain ⟨c, filled, follows⟩ := Cache.empty_follows.fill there
  refine ⟨c, ?_, by rw [decoded]; exact follows⟩
  cases answer with
  | items items =>
    have every : Json.every Coded.ofJson? items = some objects := decoded
    rw [listing, every]
    dsimp only
    rw [filled]
  | refused => cases decoded
  | silent => cases decoded

/-- A kind is ready, stopped or waited for, and which of them shows in its list. -/
theorem cases (answer : ListAnswer) :
    answer.Complete α ∨ answer.Spoilt α ∨ answer.decoded? α = none := by
  cases decoded : answer.decoded? α with
  | none => exact Or.inr (Or.inr rfl)
  | some objects =>
    by_cases named : ∀ a ∈ objects, (Resource.metadata a).name ≠ none
    · exact Or.inl ⟨objects, decoded, named⟩
    · push Not at named
      exact Or.inr (Or.inl ⟨objects, decoded, named⟩)

theorem isStopped_iff :
    (answer.listing : Listing α).isStopped = true ↔ answer.Spoilt α := by
  rcases answer.cases (α := α) with complete | spoilt | undecoded
  · obtain ⟨c, ready, -⟩ := listing_of_complete complete
    refine ⟨fun stopped => ?_, fun spoilt => ?_⟩
    · rw [ready] at stopped
      cases stopped
    · cases ready.symm.trans (listing_of_spoilt spoilt)
  · rw [listing_of_spoilt spoilt]
    exact ⟨fun _ => spoilt, fun _ => rfl⟩
  · rw [listing_of_undecoded undecoded]
    refine ⟨fun stopped => (by cases stopped), fun ⟨objects, decoded, _⟩ => ?_⟩
    cases undecoded.symm.trans decoded

theorem complete_of_ready {c : Cache α} (ready : answer.listing = .ready c) :
    answer.Complete α := by
  rcases answer.cases (α := α) with complete | spoilt | undecoded
  · exact complete
  · cases ready.symm.trans (listing_of_spoilt spoilt)
  · cases ready.symm.trans (listing_of_undecoded undecoded)

end ListAnswer

theorem Feed.ready_of_complete {α : Type} [Resource α] [Coded α] {feed : Feed}
    (h : feed.list.Complete α) : ∃ c d : Cache α, feed.list.listing = .ready c ∧
      follow c feed.events = d ∧ d.AnswersFrom (feed.ledger α) := by
  obtain ⟨c, ready, follows⟩ := ListAnswer.listing_of_complete h
  refine ⟨c, _, ready, rfl, ?_⟩
  rw [ledger, Ledger.after_append]
  exact (follows.follow feed.events).answersFrom

/-! ## All four kinds -/

namespace ApiServer

variable (server : ApiServer) (s : Settings)

def nodeFeed : Feed := server.feed (collectionPath Node none)

def machineFeed : Feed := server.feed (collectionPath Machine s.ns)

def setFeed : Feed := server.feed (collectionPath MachineSet s.ns)

def deploymentFeed : Feed := server.feed (collectionPath MachineDeployment s.ns)

/-- The lists of all four kinds are complete. -/
structure Complete : Prop where
  nodes : server.nodeFeed.list.Complete Node
  machines : (server.machineFeed s).list.Complete Machine
  machineSets : (server.setFeed s).list.Complete MachineSet
  machineDeployments : (server.deploymentFeed s).list.Complete MachineDeployment

/-- The list of some kind is spoilt. -/
def Spoilt : Prop :=
  server.nodeFeed.list.Spoilt Node ∨ (server.machineFeed s).list.Spoilt Machine ∨
    (server.setFeed s).list.Spoilt MachineSet ∨
    (server.deploymentFeed s).list.Spoilt MachineDeployment

end ApiServer

namespace Cluster

variable {server : ApiServer} {s : Settings}

/-- Each cache answers from what became of the objects of its own kind. -/
structure AnswersFrom (c : Cluster) (server : ApiServer) (s : Settings) : Prop where
  nodes : c.nodes.AnswersFrom (server.nodeFeed.ledger Node)
  machines : c.machines.AnswersFrom ((server.machineFeed s).ledger Machine)
  machineSets : c.machineSets.AnswersFrom ((server.setFeed s).ledger MachineSet)
  machineDeployments :
    c.machineDeployments.AnswersFrom ((server.deploymentFeed s).ledger MachineDeployment)

theorem start_of_complete (positive : 0 < s.syncTimeout.nanos) (h : server.Complete s) :
    ∃ c, start server s = .ok c ∧ c.AnswersFrom server s := by
  obtain ⟨n, n', readyN, followedN, answersN⟩ := Feed.ready_of_complete h.nodes
  obtain ⟨m, m', readyM, followedM, answersM⟩ := Feed.ready_of_complete h.machines
  obtain ⟨ms, ms', readyMs, followedMs, answersMs⟩ := Feed.ready_of_complete h.machineSets
  obtain ⟨md, md', readyMd, followedMd, answersMd⟩ := Feed.ready_of_complete h.machineDeployments
  refine ⟨⟨n', m', ms', md'⟩, ?_, answersN, answersM, answersMs, answersMd⟩
  rw [ApiServer.nodeFeed] at readyN followedN
  rw [ApiServer.machineFeed] at readyM followedM
  rw [ApiServer.setFeed] at readyMs followedMs
  rw [ApiServer.deploymentFeed] at readyMd followedMd
  simp only [start]
  rw [if_neg positive.ne', readyN, readyM, readyMs, readyMd, ← followedN, ← followedM,
    ← followedMs, ← followedMd]
  rfl

theorem stopped_iff : ((server.nodeFeed.list.listing : Listing Node).isStopped ∨
    ((server.machineFeed s).list.listing : Listing Machine).isStopped ∨
    ((server.setFeed s).list.listing : Listing MachineSet).isStopped ∨
    ((server.deploymentFeed s).list.listing : Listing MachineDeployment).isStopped) ↔
      server.Spoilt s :=
  or_congr ListAnswer.isStopped_iff (or_congr ListAnswer.isStopped_iff
    (or_congr ListAnswer.isStopped_iff ListAnswer.isStopped_iff))

theorem start_of_spoilt (positive : 0 < s.syncTimeout.nanos) (h : server.Spoilt s) :
    start server s = .error SyncFault.stopped.error := by
  simp only [start]
  rw [if_neg positive.ne']
  exact if_pos (stopped_iff.mpr h)

theorem start_of_pending (positive : 0 < s.syncTimeout.nanos) (incomplete : ¬ server.Complete s)
    (unspoilt : ¬ server.Spoilt s) :
    start server s = .error (SyncFault.timedOut s.syncTimeout).error := by
  have unstopped := mt stopped_iff.mp unspoilt
  simp only [ApiServer.nodeFeed, ApiServer.machineFeed, ApiServer.setFeed,
    ApiServer.deploymentFeed] at unstopped
  simp only [start]
  rw [if_neg positive.ne', if_neg unstopped]
  split
  · next n m ms md readyN readyM readyMs readyMd =>
    exact absurd ⟨ListAnswer.complete_of_ready readyN, ListAnswer.complete_of_ready readyM,
      ListAnswer.complete_of_ready readyMs, ListAnswer.complete_of_ready readyMd⟩ incomplete
  · rfl

/-- Nothing is answered, and the time is up after one and a half microseconds. -/
example : start (fun _ => ⟨.silent, []⟩) { Settings.default with syncTimeout := ⟨1500⟩ } =
    .error (.internal "cache" "timed out after 1.5µs waiting for initial sync") := by
  rfl

/-- The start gives out all four caches, or none and one error: at once when a readable list has
an object without a name, whatever else is answered, and else when the time is up. The caches then
answer from what was listed and has happened since. Nodes are always listed over all namespaces,
and the other kinds in the one that is set, if any, as far as its name can stand in a path. -/
theorem start_all_or_nothing (server : ApiServer) (s : Settings)
    (positive : 0 < s.syncTimeout.nanos) :
    ((∃ c, start server s = .ok c) ↔ server.Complete s) ∧
    (server.Spoilt s → start server s = .error (.internal "cache"
      "reflector stopped before initial sync: writer was dropped before store became ready")) ∧
    (¬ server.Complete s → ¬ server.Spoilt s → start server s = .error (.internal "cache"
      ("timed out after " ++ s.syncTimeout.text ++ " waiting for initial sync"))) ∧
    (∀ c, start server s = .ok c → c.AnswersFrom server s) ∧
    (collectionPath Node none ∈ s.listPaths ∧
      server.nodeFeed = server (collectionPath Node none)) ∧
    (s.Plain →
      (∀ path, path ∈ s.listPaths ↔ path ∈ s.collections ∧ FitsUri path) ∧
      ∀ path ∈ s.collections, FitsUri path → server.feed path = server path) := by
  have complete_of_ok {c : Cluster} (ok : start server s = .ok c) : server.Complete s := by
    by_contra incomplete
    by_cases spoilt : server.Spoilt s
    · cases ok.symm.trans (start_of_spoilt positive spoilt)
    · cases ok.symm.trans (start_of_pending positive incomplete spoilt)
  refine ⟨⟨fun ⟨c, ok⟩ => complete_of_ok ok, fun complete => ?_⟩, start_of_spoilt positive,
    start_of_pending positive, fun c ok => ?_, ⟨?_, ?_⟩, fun plain => ⟨fun path => ?_, ?_⟩⟩
  · obtain ⟨c, ok, -⟩ := start_of_complete positive complete
    exact ⟨c, ok⟩
  · obtain ⟨d, started, answers⟩ := start_of_complete positive (complete_of_ok ok)
    cases ok.symm.trans started
    exact answers
  · exact Settings.mem_listPaths_of_isPath List.mem_cons_self nodesPath_isPath nodesPath_fits
  · exact nodesPath_isPath.feed_of_fits server nodesPath_fits
  · exact Settings.mem_listPaths_of_plain plain
  · intro path mem fits
    exact (Settings.isPath_of_plain plain mem).feed_of_fits server fits

end Cluster

namespace Lab

def nodeNamed (name : Option String) : Node := ⟨{ Metadata.empty with name := name }, none⟩

def named (name : String) : Json := .object [("metadata", .object [("name", .text name)])]

def unnamed : Json := .object [("metadata", .object [])]

/-- A server with one Node, whose deletion comes after an event that stops its kind. -/
def answering : ApiServer := fun path =>
  if path = "/api/v1/nodes" then
    ⟨.items [named "node-a"], [.modified unnamed, .deleted (named "node-a")]⟩
  else ⟨.items [], []⟩

/-- A server that has a Node without a name, and answers nothing else. -/
def hanging : ApiServer := fun path =>
  if path = "/api/v1/nodes" then ⟨.items [unnamed], []⟩ else ⟨.silent, []⟩

def labSettings : Settings := { Settings.default with ns := some "lab" }

theorem labSettings_plain : labSettings.Plain := by
  intro ns there
  cases there
  rfl

theorem answering_complete : answering.Complete labSettings := by
  have asked {path : String} (mem : path ∈ labSettings.collections) (fits : FitsUri path) :
      answering.feed path = answering path :=
    (Settings.isPath_of_plain labSettings_plain mem).feed_of_fits answering fits
  constructor
  · refine ⟨[nodeNamed (some "node-a")], ?_, by decide⟩
    rw [ApiServer.nodeFeed, asked (by decide) (by decide)]
    rfl
  · refine ⟨[], ?_, by simp⟩
    rw [ApiServer.machineFeed, asked (by decide) (by decide)]
    rfl
  · refine ⟨[], ?_, by simp⟩
    rw [ApiServer.setFeed, asked (by decide) (by decide)]
    rfl
  · refine ⟨[], ?_, by simp⟩
    rw [ApiServer.deploymentFeed, asked (by decide) (by decide)]
    rfl

theorem one_server_starts : 0 < labSettings.syncTimeout.nanos ∧ labSettings.Plain ∧
    (∃ c, Cluster.start answering labSettings = .ok c ∧
      c.nodes.get? none "node-a" = some (nodeNamed (some "node-a"))) ∧
    Cluster.start hanging labSettings = .error SyncFault.stopped.error ∧
    collectionPath Machine (some "lab") ∈ labSettings.listPaths := by
  have positive : 0 < labSettings.syncTimeout.nanos := by decide
  obtain ⟨ok, -, -, answers, ⟨-, nodes⟩, paths⟩ :=
    Cluster.start_all_or_nothing answering labSettings positive
  obtain ⟨-, stopped, -, -, ⟨-, spoilt⟩, -⟩ :=
    Cluster.start_all_or_nothing hanging labSettings positive
  obtain ⟨c, started⟩ := ok.mpr answering_complete
  have found : c.nodes.get? none "node-a" = some (nodeNamed (some "node-a")) := by
    rw [(answers c started).nodes.looks, nodes]
    rfl
  have listed : hanging.nodeFeed.list.decoded? Node = some [nodeNamed none] := by
    rw [spoilt]
    rfl
  have asked : collectionPath Machine (some "lab") ∈ labSettings.listPaths :=
    ((paths labSettings_plain).1 _).mpr ⟨by decide, by decide⟩
  exact ⟨positive, labSettings_plain, ⟨c, started, found⟩,
    stopped (Or.inl ⟨_, listed, nodeNamed none, List.mem_singleton_self _, rfl⟩), asked⟩

/-- Settings with a namespace that no path can hold. -/
def asking : Settings := { Settings.default with ns := some "a?b" }

theorem question_mark_ends_path : asking.validate = .ok () ∧ 0 < asking.syncTimeout.nanos ∧
    collectionPath Machine asking.ns ∉ asking.listPaths ∧
    "/apis/cluster.x-k8s.io/v1beta1/namespaces/a" ∈ asking.listPaths := by
  have machines : listUri (collectionPath Machine asking.ns) = .ok ⟨none, "",
      "/apis/cluster.x-k8s.io/v1beta1/namespaces/a", some "b/machines?&limit=500"⟩ := rfl
  refine ⟨rfl, by decide, ?_, ?_⟩
  · intro mem
    have plain := Settings.canBePath_of_mem_listPaths mem
    revert plain
    decide
  · exact Settings.mem_listPaths_iff.mpr ⟨_, by simp [Settings.collections], _, machines, rfl⟩

end Lab
end NodeGroups
