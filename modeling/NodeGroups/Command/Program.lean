import NodeGroups.Command.Arguments
import NodeGroups.Directory
import NodeGroups.Kubeconfig
import NodeGroups.Sync

/-!
# The command line program

A run parses its arguments, validates its settings, connects, fills the caches and answers
one query. The first of these that fails ends it, and then nothing has been printed. Improper
arguments exit with 2, every other failure with 1 and a line that tells the error; an answer
that there is nothing to show is no failure.
-/
namespace NodeGroups.Command

/-- What a run leaves behind. The text about improper arguments is not part of it. -/
structure Outcome where
  exitCode : Nat
  stdout : String
  stderr : String
deriving DecidableEq, Repr

namespace Outcome

def printed (text : String) : Outcome := ⟨0, text, ""⟩

def failed (message : String) : Outcome := ⟨1, "", "Error: " ++ message ++ "\n"⟩

def improperArguments : Outcome := ⟨2, "", ""⟩

end Outcome

def versionLine : String := "lattice-autoscaler 0.1.0\n"

/-- What a query finds, before it is written in a layout. -/
inductive Finding where
  | groups (found : List NodeGroup)
  | noGroup (node : String)
  | notScalable (id : GroupId)
deriving DecidableEq, Repr

/-- Why a query finds nothing. -/
inductive QueryFault where
  | noNode (name : String)
  | noObject (id : GroupId)
  | discovery (error : Error)
deriving DecidableEq, Repr

def QueryFault.message : QueryFault → String
  | .noNode name => "node " ++ name ++ " not found"
  | .noObject id => id.text ++ " not found"
  | .discovery error => error.message

def Query.find (q : Query) (d : Directory) : Except QueryFault Finding :=
  match q with
  | .nodeGroups =>
    match d.groups with
    | .error e => .error (.discovery e)
    | .ok found => .ok (.groups found)
  | .nodeGroupFor name =>
    match d.cluster.nodeByName? name with
    | none => .error (.noNode name)
    | some node =>
      match d.groupForNode node with
      | .error e => .error (.discovery e)
      | .ok none => .ok (.noGroup node.metadata.displayName)
      | .ok (some group) => .ok (.groups [group])
  | .describe id =>
    match d.lookup id with
    | .error e => .error (.discovery e)
    | .ok .notFound => .error (.noObject id)
    | .ok .notScalable => .ok (.notScalable id)
    | .ok (.scalable group) => .ok (.groups [group])

def Finding.render (f : Finding) (l : Layout) (c : Cluster) : String :=
  match f with
  | .groups found => l.render (found.map fun g => g.summary c)
  | .noGroup node => "node " ++ node ++ " does not belong to a node group\n"
  | .notScalable id => id.text ++ " is not a scalable node group\n"

/-- The query of an invocation, answered from caches that are filled. -/
def Invocation.answer (i : Invocation) (c : Cluster) : Outcome :=
  match i.query.find ⟨c, i.settings⟩ with
  | .error fault => .failed fault.message
  | .ok finding => .printed (finding.render i.layout c)

/-- What is outside the program: the files that hold kubeconfigs and the server. -/
structure Surroundings where
  file : String → Option Json
  server : ApiServer

/-- The caches of an invocation. Without a path there is nothing to connect by but the server
at hand. -/
def Invocation.cluster (i : Invocation) (s : Surroundings) : Except Error Cluster :=
  match i.settings.validate with
  | .error e => .error e
  | .ok () =>
    match i.options.kubeconfig.map fun path => connect false path (s.file path) with
    | some (.error fault) => .error fault.error
    | _ => Cluster.start s.server i.settings

def run (arguments : List String) (e : Environment) (s : Surroundings) : Outcome :=
  match Demand.ofArguments? e arguments with
  | none => .improperArguments
  | some .version => .printed versionLine
  | some (.run i) =>
    match i.cluster s with
    | .error e => .failed e.message
    | .ok c => i.answer c

/-- The same on caches at hand, without connecting or filling any. -/
def runOn (arguments : List String) (c : Cluster) : Outcome :=
  match Demand.ofArguments? ⟨none, none⟩ arguments with
  | none => .improperArguments
  | some .version => .printed versionLine
  | some (.run i) =>
    match i.settings.validate with
    | .error e => .failed e.message
    | .ok () => i.answer c

end NodeGroups.Command
