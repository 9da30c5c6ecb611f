import CommandBinding.Binding
import CommandBinding.Source.Name

/-!
Peers: the functions that are generated beside a work function. A peer builds the configuration of the runtime, has
it read the arguments, binds one local to each parameter and calls the work function with these locals. The code of
user expressions and types is kept as tokens; all else is data.
-/
namespace CommandBinding

open Source (Name)

/-- Where a local takes its value from. The key is the name under which the runtime holds what was read. -/
inductive ValueSource where
  | required (key : String)
  /-- What was read, or the value of an expression. -/
  | requiredOr (key : String) (default : List Token)
  | flag (key : String)
  | optional (key : String)
  | array (key : String)
  | variadic (key : String)
  /-- An expression, whatever was read. -/
  | payload (expression : List Token)
deriving DecidableEq, Repr

namespace ValueSource

def key? : ValueSource → Option String
  | required key | requiredOr key _ | flag key | optional key | array key | variadic key => some key
  | payload _ => none

end ValueSource

structure Local where
  name : Name
  source : ValueSource
deriving DecidableEq, Repr

structure Payload where
  parameter : String
  expression : List Token
deriving DecidableEq, Repr

structure Configuration where
  shadowGroups : List String
  metaFlags : List Payload
deriving DecidableEq, Repr

inductive ConfigurationSource where
  /-- It is built in place. -/
  | built (configuration : Configuration)
  /-- The peer for the configuration of the action is called. -/
  | called
deriving DecidableEq, Repr

structure ArgumentReading where
  configuration : ConfigurationSource
  labels : AliasTable
  locals : List Local
deriving DecidableEq, Repr

structure WorkCall where
  function : Name
  arguments : List Name
  isAwaited : Bool
  /-- An error of the call is an error of the peer. -/
  isFallible : Bool
deriving DecidableEq, Repr

structure ActionState where
  elementType : List Token
  /-- The type of the nodes above the action. -/
  chainNode : Name
  /-- Whether the work function returns a state for the actions below. -/
  isReturned : Bool
deriving DecidableEq, Repr

inductive PeerRole where
  /-- It is the entry point of a program. -/
  | main (reading : ArgumentReading) (call : WorkCall)
  /-- It takes a list of arguments. -/
  | call (reading : ArgumentReading) (call : WorkCall) (successType : List Token)
  /-- It gives the configuration of an action. -/
  | configuration (configuration : Configuration)
  /-- It is a node of a chain of actions. -/
  | action (reading : ArgumentReading) (call : WorkCall) (state : ActionState)
deriving DecidableEq, Repr

/-- What the peers of a work function take over from it and from the directive. -/
structure PeerFrame where
  visibility : List Token
  isAsync : Bool
  generics : List Token
  /-- The clause that bounds the generic parameters. -/
  bounds : List Token
  /-- The path of the runtime library. -/
  runtime : List Token
  /-- Whether functions are called through the type that they belong to. -/
  isAssociated : Bool
deriving DecidableEq, Repr

structure Peer where
  frame : PeerFrame
  role : PeerRole
deriving DecidableEq, Repr

namespace PeerRole

def functionName : PeerRole → String
  | main _ _ => "main"
  | call _ _ _ => "call"
  | configuration _ => "action_config"
  | action _ _ _ => "action"

/-- How the arguments are read, by a peer that reads any. -/
def reading? : PeerRole → Option ArgumentReading
  | .main reading _ | .call reading _ _ | .action reading _ _ => some reading
  | .configuration _ => none

/-- The call of the work function, by a peer that calls it. -/
def workCall? : PeerRole → Option WorkCall
  | .main _ work | .call _ work _ | .action _ work _ => some work
  | .configuration _ => none

end PeerRole

end CommandBinding
