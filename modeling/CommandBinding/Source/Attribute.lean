import CommandBinding.Token

/-!
Attributes: `#[path]`, `#[path(…)]` and `#[path = expression]`, each with `#!` instead of `#` if it belongs to what
encloses it.
-/
namespace CommandBinding.Source

inductive AttributeContent where
  | nothing
  /-- Tokens in a bracket of any kind. -/
  | arguments (delimiter : Delimiter) (tokens : List Token)
  /-- The tokens of the expression behind an equals sign. -/
  | value (tokens : List Token)
deriving DecidableEq, Repr, BEq, Inhabited

structure Attribute where
  /-- Whether it belongs to what encloses it and not to what follows it. -/
  isInner : Bool
  /-- The words of the path and the colons between them. -/
  path : List Token
  content : AttributeContent
deriving DecidableEq, Repr, BEq, Inhabited

namespace Attribute

def isNamed (a : Attribute) (name : String) : Bool :=
  a.path == [.word name]

def lastWord? (a : Attribute) : Option String :=
  match a.path.getLast? with
  | some (.word text) => some text
  | _ => none

def contentTokens : AttributeContent → List Token
  | .nothing => []
  | .arguments delimiter tokens => [.group delimiter tokens]
  | .value tokens => .mark '=' false :: tokens

def tokens (a : Attribute) : List Token :=
  .mark '#' false :: (if a.isInner then [.mark '!' false] else []) ++
    [.group .bracket (a.path ++ contentTokens a.content)]

end Attribute

end CommandBinding.Source
