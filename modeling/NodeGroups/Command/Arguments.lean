import NodeGroups.GroupId
import NodeGroups.Settings
import NodeGroups.Summary

/-!
# Arguments of the command line

Options may stand before the command, after it, or both; what is given after the command
counts over what is given before it, and either over the environment. At one of the two
places an option may be given once. A value stands in the next argument or after an equals
sign; in the next argument it must not look like an option. After two dashes all arguments
are operands. The version is asked for before the command only, and it answers at once,
whatever follows.
-/
namespace NodeGroups.Command

/-- The options that are given at one place. -/
structure Options where
  kubeconfig : Option String
  ns : Option String
  syncSeconds : Option Nat
  logFormat : Option LogFormat
  layout : Option Layout
deriving DecidableEq, Repr

namespace Options

def none : Options := ⟨.none, .none, .none, .none, .none⟩

/-- What is given here, else what is given there. -/
def orElse (a b : Options) : Options where
  kubeconfig := a.kubeconfig <|> b.kubeconfig
  ns := a.ns <|> b.ns
  syncSeconds := a.syncSeconds <|> b.syncSeconds
  logFormat := a.logFormat <|> b.logFormat
  layout := a.layout <|> b.layout

end Options

inductive Query where
  | nodeGroups
  | nodeGroupFor (node : String)
  | describe (id : GroupId)
deriving DecidableEq, Repr

structure Invocation where
  options : Options
  query : Query
deriving DecidableEq, Repr

/-- What a command line asks for, if it is a proper one. -/
inductive Demand where
  | version
  | run (invocation : Invocation)
deriving DecidableEq, Repr

/-- An option by its long name. -/
inductive OptionName where
  | kubeconfig
  | ns
  | syncSeconds
  | logFormat
  | layout
deriving DecidableEq, Repr

def OptionName.ofText? (s : String) : Option OptionName :=
  [("kubeconfig", kubeconfig), ("namespace", ns), ("sync-timeout-secs", syncSeconds),
    ("log-format", logFormat), ("output", layout)].lookup s

/-- The options with one more, unless it is there already or its value is none it can have. -/
def Options.give? (o : Options) (name : OptionName) (value : String) : Option Options :=
  match name with
  | .kubeconfig =>
    if o.kubeconfig.isSome ∨ value = "" then .none else some { o with kubeconfig := some value }
  | .ns => if o.ns.isSome then .none else some { o with ns := some value }
  | .syncSeconds =>
    match o.syncSeconds, Text.readUInt64 value.toList with
    | .none, .ok n => some { o with syncSeconds := some n }
    | _, _ => .none
  | .logFormat =>
    match o.logFormat, LogFormat.parse value with
    | .none, .ok f => some { o with logFormat := some f }
    | _, _ => .none
  | .layout =>
    match o.layout, Layout.ofText? value with
    | .none, some l => some { o with layout := some l }
    | _, _ => .none

/-- What an argument is by its look. -/
inductive Look where
  | operand (s : String)
  | endOfOptions
  | long (name : String) (value : Option String)
  | short (letters : List Char)
deriving DecidableEq, Repr

def look (argument : String) : Look :=
  match argument.toList with
  | ['-', '-'] => .endOfOptions
  | '-' :: '-' :: cs =>
    let name := String.ofList (cs.takeWhile fun c => c != '=')
    match cs.dropWhile fun c => c != '=' with
    | [] => .long name none
    | _ :: value => .long name (some (String.ofList value))
  | ['-'] => .operand argument
  | '-' :: cs => .short cs
  | _ => .operand argument

/-- The options and operands after a command, if they are proper; `pending` is an option
that waits for its value. -/
def parseRest (o : Options) (operands : List String) (pending : Option OptionName) :
    List String → Option (Options × List String)
  | [] => if pending.isSome then .none else some (o, operands)
  | argument :: rest =>
    match look argument, pending with
    | .operand s, some name => (o.give? name s).bind fun o => parseRest o operands .none rest
    | .operand s, .none => parseRest o (operands ++ [s]) .none rest
    | .endOfOptions, .none => some (o, operands ++ rest)
    | .long name value, .none =>
      match OptionName.ofText? name, value with
      | .none, _ => .none
      | some option, .none => parseRest o operands (some option) rest
      | some option, some value =>
        (o.give? option value).bind fun o => parseRest o operands .none rest
    | _, _ => .none

/-- The query of a command with its operands. -/
def Query.ofOperands? (command : String) (operands : List String) : Option Query :=
  match command, operands with
  | "node-groups", [] => some .nodeGroups
  | "node-group-for", [node] => some (.nodeGroupFor node)
  | "describe", [id] =>
    match GroupId.parse id with
    | .ok id => some (.describe id)
    | .error _ => none
  | _, _ => none

/-- The environment variables that stand in for options. -/
structure Environment where
  kubeconfig : Option String
  ns : Option String
deriving DecidableEq, Repr

/-- The options that the environment gives behind those of the places. A path to no file is
none it can give, so it must not be asked for one. -/
def Environment.options? (e : Environment) (places : List Options) : Option Options :=
  if e.kubeconfig = some "" ∧ places.any fun o => o.kubeconfig.isNone then .none
  else some { Options.none with kubeconfig := e.kubeconfig, ns := e.ns }

/-- The demand of a command line up to its command, and of the arguments after it. -/
def parseFrom (e : Environment) (o : Options) (pending : Option OptionName) :
    List String → Option Demand
  | [] => none
  | argument :: rest =>
    match look argument, pending with
    | .operand s, some name => (o.give? name s).bind fun o => parseFrom e o .none rest
    | .operand command, .none => do
      let (later, operands) ← parseRest Options.none [] .none rest
      let query ← Query.ofOperands? command operands
      let given ← e.options? [o, later]
      return .run ⟨(later.orElse o).orElse given, query⟩
    | .long "version" .none, .none => some .version
    | .short ('V' :: _), .none => some .version
    | .long name value, .none =>
      match OptionName.ofText? name, value with
      | .none, _ => .none
      | some option, .none => parseFrom e o (some option) rest
      | some option, some value => (o.give? option value).bind fun o => parseFrom e o .none rest
    | _, _ => .none

/-- The demand of a command line with the environment behind it. -/
def Demand.ofArguments? (e : Environment) (arguments : List String) : Option Demand :=
  parseFrom e Options.none .none arguments

namespace Invocation

def settings (i : Invocation) : Settings where
  ns := i.options.ns
  syncTimeout := Timespan.ofSeconds (i.options.syncSeconds.getD Settings.defaultSyncSeconds)
  logFormat := i.options.logFormat.getD .text

def layout (i : Invocation) : Layout := i.options.layout.getD .text

end Invocation
end NodeGroups.Command
