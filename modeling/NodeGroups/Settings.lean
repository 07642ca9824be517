import NodeGroups.Error

/-!
# Settings

Discovery may be confined to one namespace, and the first filling of the caches may take a
limited time. Settings are data until they are validated: a zero limit and a namespace that
no object can have are refused, the limit first.
-/
namespace NodeGroups

/-- A length of time in nanoseconds. -/
structure Timespan where
  nanos : Nat
deriving DecidableEq, Repr

namespace Timespan

def ofSeconds (n : Nat) : Timespan := ⟨1000000000 * n⟩

/-- A number as the decimal places behind a point, without trailing zeros. -/
def fraction (places n : Nat) : List Char :=
  let digits := Text.natDigits n
  let padded := List.replicate (places - digits.length) '0' ++ digits
  let kept := (padded.reverse.dropWhile fun c => c = '0').reverse
  if kept = [] then [] else '.' :: kept

/-- The length in a unit that has `10 ^ places` nanoseconds. -/
def textIn (places : Nat) (unit : String) (t : Timespan) : String :=
  let one := Nat.pow 10 places
  Text.decimal (t.nanos / one : Nat) ++ String.ofList (fraction places (t.nanos % one)) ++ unit

/-- In the largest unit that there is one of; no time at all is shown in the smallest one. -/
def text (t : Timespan) : String :=
  if Nat.pow 10 9 ≤ t.nanos then t.textIn 9 "s"
  else if Nat.pow 10 6 ≤ t.nanos then t.textIn 6 "ms"
  else if Nat.pow 10 3 ≤ t.nanos then t.textIn 3 "µs"
  else t.textIn 0 "ns"

end Timespan

inductive LogFormat where
  | text
  | json
deriving DecidableEq, Repr

namespace LogFormat

def name : LogFormat → String
  | text => "Text"
  | json => "Json"

/-- The name of a format with its ASCII letters in lower case. -/
def folded (source : String) : String := source.map Char.toLower

/-- A format by its name in any case of ASCII letters, or the name that is none. -/
def parse (source : String) : Except String LogFormat :=
  if folded source = "text" then .ok text
  else if folded source = "json" then .ok json
  else .error (folded source)

def unknownMessage (name : String) : String :=
  "unknown log format " ++ Text.quoted name ++ " (expected \"text\" or \"json\")"

/-- What the second attempt to install logging in one process reports. -/
def alreadyInstalledMessage : String :=
  "failed to initialize tracing subscriber: a global default trace dispatcher has already been set"

/-- What is logged when the environment does not say. -/
def defaultFilter : String := "info,lattice=debug,kube=info,tower=warn,hyper=warn"

end LogFormat

structure Settings where
  ns : Option String
  syncTimeout : Timespan
  logFormat : LogFormat
deriving DecidableEq, Repr

namespace Settings

def defaultSyncSeconds : Nat := 60

def default : Settings := ⟨none, Timespan.ofSeconds defaultSyncSeconds, .text⟩

/-- The error about a setting. -/
def fault (field message : String) : Error := .validation "AutoscalerConfig" (some field) message

def isNamespace (ns : String) : Bool := ns ≠ "" && !ns.toList.contains '/'

def validate (s : Settings) : Except Error Unit :=
  if s.syncTimeout.nanos = 0 then
    .error (fault "sync_timeout" "sync timeout must be greater than zero")
  else match s.ns with
    | none => .ok ()
    | some ns =>
      if isNamespace ns then .ok ()
      else .error (fault "namespace" ("invalid namespace " ++ Text.quoted ns))

def inScope (s : Settings) (ns : String) : Bool :=
  match s.ns with
  | none => true
  | some scope => scope = ns

def text (s : Settings) : String :=
  "AutoscalerConfig \x7b namespace: " ++
    (match s.ns with
      | none => "None"
      | some ns => "Some(" ++ Text.quoted ns ++ ")") ++
    ", sync_timeout: " ++ s.syncTimeout.text ++ ", log_format: " ++ s.logFormat.name ++ " \x7d"

end Settings
end NodeGroups
