import CommandBinding.Peer.Code
import CommandBinding.Peer.Generation
import CommandBinding.Source.Declaration

/-!
Expansion of a directive. The annotated function is always written back, without the options of its parameters, and
behind it stand either all of its peers or, in front of it, all errors; so an error never makes the function itself
unknown to the code that calls it.
-/
namespace CommandBinding

open Source

/-- What a directive expands to. -/
inductive Expansion where
  /-- The item is no function. -/
  | notFunction (item : List Token)
  /-- The function cannot be bound, or its peers cannot be generated. -/
  | failed (messages : List String) (function : FunctionItem)
  | expanded (function : FunctionItem) (peers : List Peer)
deriving Repr

namespace Expansion

def messages : Expansion → List String
  | notFunction _ => [Fault.notAFunction.message]
  | failed messages _ => messages
  | expanded _ _ => []

def itemTokens : Expansion → List Token
  | notFunction item => item
  | failed _ function | expanded function _ => function.tokens

def peers : Expansion → List Peer
  | notFunction _ | failed _ _ => []
  | expanded _ peers => peers

def tokens (e : Expansion) : List Token :=
  e.messages.flatMap compileError ++ e.itemTokens ++ e.peers.flatMap Peer.tokens

def ofFunction (kind : DirectiveKind) (arguments : List Token) (f : FunctionItem) : Expansion :=
  match directiveOfArguments kind arguments with
  | .error e => .failed [e.message] f.withoutOptions
  | .ok directive =>
    match f.bind directive {} with
    | .error found => .failed (found.map (·.message)) f.withoutOptions
    | .ok binding =>
      match Peer.peersOf f.withoutOptions binding directive {} with
      | .error e => .failed [e.message] f.withoutOptions
      | .ok peers => .expanded f.withoutOptions peers

def ofItem (kind : DirectiveKind) (arguments item : List Token) : Expansion :=
  match parseFunction item with
  | .error _ => .notFunction item
  | .ok f => ofFunction kind arguments f

end Expansion

end CommandBinding
