import CommandBinding.Aliases
import CommandBinding.ShadowGroup
import CommandBinding.StateThread

/-!
Bindings: what the runtime has to know to call a work function from the command line. `WorkFunction.bind` runs
every rule over one function and gives either the whole binding or all findings: usage, categories, labels, shadow
groups and state threading do not wait for each other.
-/
namespace CommandBinding

inductive DirectiveKind where
  /-- The entry point of a program. -/
  | mainFunction
  /-- A function that takes a list of arguments. -/
  | callFunction
  /-- A node of a chain of commands, which threads state. -/
  | commandAction
deriving DecidableEq, Repr

namespace DirectiveKind

def all : List DirectiveKind := [mainFunction, callFunction, commandAction]

def attributeName : DirectiveKind → String
  | mainFunction => "main_function"
  | callFunction => "call_function"
  | commandAction => "command_action"

def ofAttributeName? (name : String) : Option DirectiveKind :=
  all.find? (·.attributeName == name)

def peerNames : DirectiveKind → List String
  | mainFunction => ["main"]
  | callFunction => ["call"]
  | commandAction => ["action", "action_config"]

def threadsState (k : DirectiveKind) : Bool :=
  k == commandAction

end DirectiveKind

structure Directive where
  kind : DirectiveKind
  shadowGroups : List GroupArgument := []
  /-- The work function is called as an associated function. -/
  associated : Bool := false
  /-- The path of the runtime library, if it is not the usual one. -/
  runtime? : Option String := none
deriving DecidableEq, Repr

namespace Directive

def runtimePath (d : Directive) : String :=
  d.runtime?.getD "::cmdbind"

def withShadowGroup (d : Directive) (argument : GroupArgument) : Directive :=
  { d with shadowGroups := d.shadowGroups ++ [argument] }

end Directive

structure MetaFlagDefault where
  parameter : String
  default : String
deriving DecidableEq, Repr

/-- The tables that generated code hands to the runtime. -/
structure RuntimeTables where
  metaFlags : List MetaFlagDefault
  shadowGroups : List String
  labels : AliasTable
deriving DecidableEq, Repr

namespace RuntimeTables

def metaFlagDefault? (p : BoundParameter) : Option MetaFlagDefault :=
  if p.category = .metaFlag then p.default?.map (⟨p.name, ·⟩) else none

/-- The tables of the given parameters, groups and aliases. -/
def assemble (ps : List BoundParameter) (groups : List ShadowGroup) (labels : AliasTable) : RuntimeTables :=
  ⟨ps.filterMap metaFlagDefault?, groups.map ShadowGroup.render, labels⟩

end RuntimeTables

structure Binding where
  kind : DirectiveKind
  commandName : String
  /-- The work function, with the parameters that threading the state has added. -/
  function : WorkFunction
  /-- The parameters that are given on the command line, in order. -/
  parameters : List BoundParameter
  tables : RuntimeTables
  state : Option StateThread
deriving DecidableEq, Repr

namespace Binding

def parameter? (b : Binding) (name : String) : Option BoundParameter :=
  b.parameters.find? (·.name == name)

end Binding

namespace WorkFunction

/-- Whether a name is kept for generated code: it is longer than four bytes, and `__` begins and ends it. -/
def isReservedName (name : String) : Bool :=
  4 < name.utf8ByteSize && name.startsWith "__" && name.endsWith "__"

/-- What the name, the return type and the generics of a function violate. -/
def usageFindings (f : WorkFunction) (kind : DirectiveKind) : List Finding :=
  (if isReservedName f.name then [.onFunction .reservedFunctionName] else []) ++
  (if kind = .mainFunction then
    (if f.returnType = "" then [] else [.onFunction .mainFunctionReturnsValue]) ++
    (if f.generics = "" then [] else [.onFunction .genericMainFunction])
   else [])

/-- The parameters that are given on the command line: all but those that carry the state of an action. -/
def commandLineParameters (f : WorkFunction) (kind : DirectiveKind) (settings : Settings) : List BoundParameter :=
  (f.parameters.map (·.bound settings)).filter fun p => !(kind.threadsState && p.isChainWiring)

/-- The threaded parameters of an action; other functions keep theirs. -/
def threadedFor (f : WorkFunction) (kind : DirectiveKind) (settings : Settings) :
    Except (List Finding) (WorkFunction × Option StateThread) :=
  if kind.threadsState then
    (StateThread.resolve f settings).map fun t => ({ f with parameters := t.parameters }, some t.thread)
  else .ok (f, none)

def failures {α : Type} : Except (List Finding) α → List Finding
  | .ok _ => []
  | .error found => found

def groupFindings : Except Finding (List ShadowGroup) → List Finding
  | .ok _ => []
  | .error found => [found]

/-- Binds a work function as the directive asks, or gives all findings. -/
def bind (f : WorkFunction) (directive : Directive) (settings : Settings) : Except (List Finding) Binding :=
  let kind := directive.kind
  let ps := f.commandLineParameters kind settings
  let (labels, labelFindings) := AliasTable.build ps settings.labelSeparator
  let groups := ShadowGroup.resolve directive.shadowGroups (ps.map (·.name))
  let threaded := f.threadedFor kind settings
  let found := f.usageFindings kind ++ f.parameters.flatMap (·.findings settings) ++ labelFindings ++
    groupFindings groups ++ failures threaded
  match groups, threaded with
  | .ok groups, .ok (function, state) =>
    unlessFound found ⟨kind, f.commandName, function, ps, .assemble ps groups labels, state⟩
  | _, _ => .error found

end WorkFunction

end CommandBinding
