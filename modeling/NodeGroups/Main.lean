import NodeGroups.Command.Program

/-!
# Entry point

The program answers from what the API server holds, given on standard input as a JSON object
with a list of objects under each plural; what is not there is an empty list. The kubeconfig
and the namespace may be given in the environment.
-/
namespace NodeGroups.Command

def listedObjects (document : Json) (plural : String) : List Json :=
  ((document.member? plural).bind Json.asArray?).getD []

def serverOf (document : Json) : ApiServer := ApiServer.holding (listedObjects document)

/-- The path of the kubeconfig that a run would read. -/
def kubeconfigPath? (e : Environment) (arguments : List String) : Option String :=
  match Demand.ofArguments? e arguments with
  | some (.run i) => i.options.kubeconfig
  | _ => none

/-- What a file holds, if it is there; a file that is no JSON holds nothing to connect by. -/
def readDocument (path : String) : IO (Option Json) := do
  try
    let contents ← IO.FS.readFile path
    return some ((Json.parse? contents).getD .null)
  catch _ => return none

def answer (arguments : List String) : IO UInt32 := do
  let e : Environment :=
    ⟨← IO.getEnv "KUBECONFIG", ← IO.getEnv "LATTICE_AUTOSCALER_NAMESPACE"⟩
  let held ← (← IO.getStdin).readToEnd
  let document := (Json.parse? held).getD .null
  let kubeconfig ← match kubeconfigPath? e arguments with
    | none => pure none
    | some path => readDocument path
  let outcome := run arguments e ⟨fun _ => kubeconfig, serverOf document⟩
  IO.print outcome.stdout
  IO.eprint outcome.stderr
  return outcome.exitCode.toUInt32

end NodeGroups.Command

def main (arguments : List String) : IO UInt32 := NodeGroups.Command.answer arguments
