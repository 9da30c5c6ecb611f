import CommandBinding.Source.Attribute
import CommandBinding.Source.ListItem
import CommandBinding.Source.Name

/-!
Functions as they stand in the source: attributes, visibility, signature and body. A `FunctionItem` holds all of the
tokens of a function, so it can be written back with some of its attributes left out.
-/
namespace CommandBinding.Source

structure GenericParameter where
  isLifetime : Bool
  /-- Attributes, name, and the bounds or the type. -/
  head : List Token
  /-- The default and the equals sign in front of it. -/
  default : List Token
  comma : List Token
deriving DecidableEq, Repr

namespace GenericParameter

def withDefault (p : GenericParameter) : ListItem Token :=
  ⟨p.isLifetime, p.head ++ p.default, p.comma⟩

/-- The parameter as a member of the list of an implementation, which has no defaults. -/
def withoutDefault (p : GenericParameter) : ListItem Token :=
  ⟨p.isLifetime, p.head, p.comma⟩

/-- A parameter list in angle brackets. An empty list is not written. -/
def list (items : List (ListItem Token)) : List Token :=
  if items.isEmpty then []
  else .mark '<' false :: ListItem.lifetimesFirst [.mark ',' false] items ++ [.mark '>' false]

end GenericParameter

structure TypedInput where
  attributes : List Attribute
  pattern : List Token
  /-- The name that the pattern is, if it is no more than a name. -/
  name? : Option Name
  type : List Token
deriving DecidableEq, Repr

inductive Input where
  /-- The receiver of a method, with the attributes in front of it. -/
  | receiver (attributes : List Attribute) (self : List Token)
  | typed (input : TypedInput)
deriving DecidableEq, Repr

namespace Input

def tokens : Input → List Token
  | receiver attributes self => attributes.flatMap Attribute.tokens ++ self
  | typed input => input.attributes.flatMap Attribute.tokens ++ input.pattern ++ .mark ':' false :: input.type

/-- Parameters with commas between, and one behind the last if `endsInComma`. -/
def list (endsInComma : Bool) : List Input → List Token
  | [] => []
  | [last] => last.tokens ++ (if endsInComma then [.mark ',' false] else [])
  | input :: rest => input.tokens ++ .mark ',' false :: list endsInComma rest

end Input

structure Output where
  type : List Token
  /-- The first type argument, if the type is a path to `Result`. -/
  success? : Option (List Token)
deriving DecidableEq, Repr

structure Signature where
  isConst : Bool
  isAsync : Bool
  isUnsafe : Bool
  /-- The calling convention. -/
  linkage : List Token
  name : Name
  generics : List GenericParameter
  inputs : List Input
  /-- Whether a comma stands behind the last of the inputs. -/
  endsInComma : Bool
  /-- The parameter that takes any number of values, with its comma. -/
  variadic : List Token
  output? : Option Output
  /-- The clause that bounds the generic parameters. -/
  bounds : List Token
deriving DecidableEq, Repr

namespace Signature

def optionalWord (word : String) (stands : Bool) : List Token :=
  if stands then [.word word] else []

def genericTokens (s : Signature) : List Token :=
  GenericParameter.list (s.generics.map (·.withDefault))

def genericHeads (s : Signature) : List Token :=
  GenericParameter.list (s.generics.map (·.withoutDefault))

/-- The parameters. A comma stands in front of the variadic one. -/
def inputTokens (s : Signature) : List Token :=
  Input.list (s.endsInComma || !s.variadic.isEmpty) s.inputs ++ s.variadic

def outputTokens (s : Signature) : List Token :=
  match s.output? with
  | some output => .mark '-' true :: .mark '>' false :: output.type
  | none => []

def tokens (s : Signature) : List Token :=
  optionalWord "const" s.isConst ++ optionalWord "async" s.isAsync ++ optionalWord "unsafe" s.isUnsafe ++
    s.linkage ++ [.word "fn", .word s.name.text] ++ s.genericTokens ++ [.group .parenthesis s.inputTokens] ++
    s.outputTokens ++ s.bounds

end Signature

structure FunctionItem where
  attributes : List Attribute
  visibility : List Token
  /-- The word `default` in front of a function of an implementation. -/
  defaultness : List Token
  signature : Signature
  /-- The inside of the braces. -/
  body : List Token
deriving DecidableEq, Repr

namespace FunctionItem

/-- The tokens of a function. The attributes that belong to what encloses them stand in its body. -/
def tokens (f : FunctionItem) : List Token :=
  (f.attributes.filter (!·.isInner)).flatMap Attribute.tokens ++ f.visibility ++ f.defaultness ++
    f.signature.tokens ++
    [.group .brace ((f.attributes.filter (·.isInner)).flatMap Attribute.tokens ++ f.body)]

end FunctionItem

end CommandBinding.Source
