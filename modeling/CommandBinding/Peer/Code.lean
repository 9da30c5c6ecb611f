import CommandBinding.Code
import CommandBinding.Peer

/-!
The code of peers. Locals of a peer other than those of its parameters begin with two underscores.
-/
namespace CommandBinding

namespace ValueSource

/-- A reading method of the values called with its arguments. Its error is an error of the peer. -/
def reading (method : String) (arguments : List (List Token)) : List Token :=
  code "__values ." ++ code method ++ inParentheses (withCommas arguments) ++ code "?"

def tokens : ValueSource → List Token
  | required key => reading "value" [stringCode key]
  | requiredOr key default => reading "value_or_else" [stringCode key, code "||" ++ default]
  | flag key => reading "flag" [stringCode key]
  | optional key => reading "optional" [stringCode key]
  | array key => reading "array" [stringCode key]
  | variadic key => reading "variadic" [stringCode key]
  | payload expression => expression

end ValueSource

namespace Local

def tokens (l : Local) : List Token :=
  code "let" ++ l.name.token :: code "=" ++ l.source.tokens ++ code ";"

end Local

namespace PeerFrame

def inRuntime (frame : PeerFrame) (name : String) : List Token :=
  frame.runtime ++ code "::" ++ code name

def errorType (frame : PeerFrame) : List Token :=
  frame.inRuntime "Error"

/-- The path of a function that stands beside the work function. -/
def sibling (frame : PeerFrame) (function : Token) : List Token :=
  (if frame.isAssociated then code "Self ::" else []) ++ [function]

def head (frame : PeerFrame) (isAsync : Bool) (name : String) (generics : List Token) : List Token :=
  frame.visibility ++ (if isAsync then code "async" else []) ++ code "fn" ++ code name ++ generics

end PeerFrame

namespace Configuration

/-- A meta flag: its name and its boxed payload. -/
def metaFlagCode (frame : PeerFrame) (p : Payload) : List Token :=
  inParentheses (stringCode p.parameter ++ code ", :: std :: boxed :: Box :: new" ++ inParentheses p.expression ++
    code "as :: std :: boxed :: Box < dyn" ++ frame.inRuntime "MetaFlagProtocol" ++ code ">")

def tokens (frame : PeerFrame) (c : Configuration) : List Token :=
  frame.inRuntime "PeerFunctionConfig" ++ code ":: new" ++ inParentheses [] ++
    code ". add_shadow_groups" ++
    inParentheses (code "&" ++ inBrackets (withCommas (c.shadowGroups.map stringCode))) ++
    code ". add_meta_flags" ++
    inParentheses (code ":: std :: vec !" ++ inBrackets (withCommas (c.metaFlags.map (metaFlagCode frame))))

end Configuration

namespace ArgumentReading

def configurationCode (frame : PeerFrame) : ConfigurationSource → List Token
  | .built configuration => configuration.tokens frame
  | .called => frame.sibling (.word "action_config") ++ inParentheses []

def labelCode (frame : PeerFrame) (row : AliasRow) : List Token :=
  frame.inRuntime "ParameterLabels" ++ code ":: new" ++ inParentheses (withCommas
    [stringCode row.parameter, optionalStringCode row.aliases.short, optionalStringCode row.aliases.legacy,
      optionalStringCode row.aliases.long])

def tokens (frame : PeerFrame) (r : ArgumentReading) : List Token :=
  code "let __config =" ++ configurationCode frame r.configuration ++ code ";" ++
    code "let __values =" ++ frame.inRuntime "parse_arguments" ++ inParentheses (code "& __config , :: std :: vec !" ++
      inBrackets (withCommas (r.labels.map (labelCode frame))) ++ code ", __args") ++ code "? ;" ++
    r.locals.flatMap Local.tokens

end ArgumentReading

namespace WorkCall

def tokens (frame : PeerFrame) (call : WorkCall) : List Token :=
  frame.sibling call.function.token ++ inParentheses (withCommas (call.arguments.map ([·.token]))) ++
    (if call.isAwaited then code ". await" else []) ++
    (if call.isFallible then
      code ". map_err" ++ inParentheses (frame.inRuntime "Error" ++ code ":: from_work_error") ++ code "?"
     else [])

end WorkCall

namespace Peer

def argumentsCode : List Token :=
  code "__args : &" ++ inBrackets (code ":: std :: string :: String") ++ code ","

/-- What a program runs: a block that gives the result of reading the arguments and calling the work function. -/
def runCode (frame : PeerFrame) (reading : ArgumentReading) (call : WorkCall) : List Token :=
  let steps := reading.tokens frame ++ call.tokens frame ++ code ";"
  let success := code ":: std :: result :: Result :: Ok"
  if call.isAwaited then
    frame.inRuntime "block_on" ++ inParentheses (code "async move" ++ inBraces (steps ++ success ++ code ":: <" ++
      inParentheses [] ++ code "," ++ frame.errorType ++ code ">" ++ inParentheses (inParentheses [])))
  else
    inParentheses (code "|| -> :: std :: result :: Result <" ++ inParentheses [] ++ code "," ++ frame.errorType ++
      code ">" ++ inBraces (steps ++ success ++ inParentheses (inParentheses []))) ++ inParentheses []

def mainCode (frame : PeerFrame) (reading : ArgumentReading) (call : WorkCall) : List Token :=
  frame.head false "main" [] ++ inParentheses [] ++ inBraces (
    code "let __args : :: std :: vec :: Vec < :: std :: string :: String > = :: std :: env :: args" ++
    inParentheses [] ++ code ". skip" ++ inParentheses (code "1") ++ code ". collect" ++ inParentheses [] ++ code ";" ++
    code "let __args = __args . as_slice" ++ inParentheses [] ++ code ";" ++
    code "if let :: std :: result :: Result :: Err" ++ inParentheses (code "__error") ++ code "=" ++
    runCode frame reading call ++
    inBraces (frame.inRuntime "exit_with_error" ++ inParentheses (code "__error") ++ code ";"))

def callCode (frame : PeerFrame) (reading : ArgumentReading) (call : WorkCall) (successType : List Token) :
    List Token :=
  frame.head frame.isAsync "call" frame.generics ++ inParentheses argumentsCode ++
    code "-> :: std :: result :: Result <" ++ successType ++ code "," ++ frame.errorType ++ code ">" ++ frame.bounds ++
    inBraces (reading.tokens frame ++ code ":: std :: result :: Result :: Ok" ++ inParentheses (call.tokens frame))

def configurationCode (frame : PeerFrame) (configuration : Configuration) : List Token :=
  frame.head false "action_config" [] ++ inParentheses [] ++ code "->" ++ frame.inRuntime "PeerFunctionConfig" ++
    inBraces (configuration.tokens frame)

/-- The statements of an action behind the reading of its arguments. -/
def outcomeCode (frame : PeerFrame) (call : WorkCall) (isReturned : Bool) : List Token :=
  if isReturned then
    code "let __output =" ++ call.tokens frame ++ code "; :: std :: result :: Result :: Ok" ++
      inParentheses (code ":: std :: option :: Option :: Some" ++ inParentheses (code "__output"))
  else
    call.tokens frame ++ code "; :: std :: result :: Result :: Ok" ++
      inParentheses (code ":: std :: option :: Option :: None")

def actionCode (frame : PeerFrame) (reading : ArgumentReading) (call : WorkCall) (state : ActionState) :
    List Token :=
  let sequence := code ":: std :: vec :: Vec <"
  code "#" ++ inBrackets (code "allow" ++ inParentheses (code "unused_variables")) ++
    frame.head frame.isAsync "action" frame.generics ++
    inParentheses (argumentsCode ++
      code nodePathName ++ code ":" ++ sequence ++ frame.runtime ++ code "::" ++ state.chainNode.token ::
        code "<" ++ state.elementType ++ code ">> ," ++
      code stateName ++ code ":" ++ sequence ++ state.elementType ++ code "> ,") ++
    code "-> :: std :: result :: Result < :: std :: option :: Option <" ++ sequence ++ state.elementType ++
    code ">> ," ++ frame.errorType ++ code ", >" ++ frame.bounds ++
    inBraces (reading.tokens frame ++ outcomeCode frame call state.isReturned)

def tokens (p : Peer) : List Token :=
  match p.role with
  | .main reading call => mainCode p.frame reading call
  | .call reading call successType => callCode p.frame reading call successType
  | .configuration configuration => configurationCode p.frame configuration
  | .action reading call state => actionCode p.frame reading call state

end Peer

end CommandBinding
