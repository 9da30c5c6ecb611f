import CommandBinding.Peer
import CommandBinding.Source.Grammar

/-!
The peers of a bound work function. Types, defaults and the path of the runtime library are texts in a binding, and
generation is where they become code again, so it fails where a text is none. It also fails on a name that not even
its raw form makes a name of code; a binding that comes from source holds no such name.
-/
namespace CommandBinding

open Source

inductive PeerError where
  | invalidRuntime (path : String) (error : ParseError)
  /-- A type or an expression does not parse. -/
  | invalidCode (error : ParseError)
  /-- The binding of an action has no state. -/
  | missingState
  /-- A text is no name. -/
  | unusableName (text : String)
deriving Repr

namespace PeerError

def message : PeerError → String
  | invalidRuntime path error => "invalid runtime path '" ++ path ++ "': " ++ error.message
  | invalidCode error => error.message
  | missingState => "command action compiled without a state thread"
  | unusableName text => "'" ++ text ++ "' is not a name"

end PeerError

namespace Peer

def nameOf (text : String) : Except PeerError Name :=
  match Name.ofText? text with
  | some name => .ok name
  | none => .error (.unusableName text)

def expressionOf (text : String) : Except PeerError (List Token) :=
  match parseExpression text with
  | .ok expression => .ok expression.tokens
  | .error e => .error (.invalidCode e)

/-- The type that a text is. The empty text is the unit type. -/
def typeOf (text : String) : Except PeerError (List Token) :=
  if text = "" then .ok [.group .parenthesis []]
  else match parseType text with
    | .ok type => .ok type.tokens
    | .error e => .error (.invalidCode e)

def runtimeOf (directive : Directive) : Except PeerError (List Token) :=
  match parsePath directive.runtimePath with
  | .ok path => .ok (Tree.tokensOf path)
  | .error e => .error (.invalidRuntime directive.runtimePath e)

def frameOf (f : FunctionItem) (directive : Directive) : Except PeerError PeerFrame := do
  return {
    visibility := f.visibility
    isAsync := f.signature.isAsync
    generics := f.signature.genericHeads
    bounds := f.signature.bounds
    runtime := ← runtimeOf directive
    isAssociated := directive.associated }

def payloadOf (d : MetaFlagDefault) : Except PeerError Payload := do
  return ⟨d.parameter, ← expressionOf d.default⟩

def configurationOf (tables : RuntimeTables) : Except PeerError Configuration := do
  return ⟨tables.shadowGroups, ← tables.metaFlags.mapM payloadOf⟩

def sourceOf (p : BoundParameter) : Except PeerError ValueSource :=
  match p.category, p.default? with
  | .value _, some default => return .requiredOr p.name (← expressionOf default)
  | .value _, none => return .required p.name
  | .flag, _ => return .flag p.name
  | .metaFlag, default? => return .payload (← expressionOf (default?.getD ""))
  | .optional _, _ => return .optional p.name
  | .array _, _ => return .array p.name
  | .variadic _, _ => return .variadic p.name

def localOf (p : BoundParameter) : Except PeerError Local := do
  let name ← nameOf p.name
  return ⟨name, ← sourceOf p⟩

def readingOf (b : Binding) (configuration : ConfigurationSource) : Except PeerError ArgumentReading := do
  return ⟨configuration, b.tables.labels, ← b.parameters.mapM localOf⟩

/-- The names under which an action receives what its declaration asks for itself. -/
def wiringNames (state : StateThread) : List String :=
  if state.synthesized then [] else [nodePathName, stateName]

/-- The call of a work function with the locals of its parameters, and then the names `more`. -/
def workCallOf (f : FunctionItem) (b : Binding) (reading : ArgumentReading) (more : List String) :
    Except PeerError WorkCall := do
  return {
    function := f.signature.name
    arguments := reading.locals.map (·.name) ++ (← more.mapM nameOf)
    isAwaited := b.function.isAsync
    isFallible := b.function.fallible }

def mainOf (f : FunctionItem) (b : Binding) (directive : Directive) : Except PeerError Peer := do
  let frame ← frameOf f directive
  let reading ← readingOf b (.built (← configurationOf b.tables))
  return ⟨frame, .main reading (← workCallOf f b reading [])⟩

def callOf (f : FunctionItem) (b : Binding) (directive : Directive) : Except PeerError Peer := do
  let frame ← frameOf f directive
  let successType ← typeOf b.function.returnType
  let reading ← readingOf b (.built (← configurationOf b.tables))
  return ⟨frame, .call reading (← workCallOf f b reading []) successType⟩

def actionsOf (f : FunctionItem) (b : Binding) (directive : Directive) (settings : Settings) :
    Except PeerError (List Peer) := do
  let frame ← frameOf f directive
  let configuration ← configurationOf b.tables
  match b.state with
  | none => throw .missingState
  | some state =>
    let elementType ← typeOf state.elementType
    let chainNode ← nameOf settings.chainNodeType
    let reading ← readingOf b .called
    let call ← workCallOf f b reading (wiringNames state)
    let state := ⟨elementType, chainNode, b.function.returnType != ""⟩
    return [⟨frame, .configuration configuration⟩, ⟨frame, .action reading call state⟩]

/-- The peers of a bound work function, in the order in which they are written. -/
def peersOf (f : FunctionItem) (b : Binding) (directive : Directive) (settings : Settings) :
    Except PeerError (List Peer) :=
  match b.kind with
  | .mainFunction => return [← mainOf f b directive]
  | .callFunction => return [← callOf f b directive]
  | .commandAction => actionsOf f b directive settings

end Peer

end CommandBinding
