import CommandBinding.Source.Grammar.Expression
import CommandBinding.Source.Grammar.Generics

/-!
Functions: visibility, signature and body.
-/
namespace CommandBinding.Source

open CommandBinding.Source.Parser

/-- The visibility of an item: nothing, `pub`, or `pub` with a path in parentheses. -/
def visibility : Parser Trees := do
  if !atWord "pub" (← remaining) then return []
  let head ← anyToken
  match ← remaining with
  | .group .parenthesis inner :: _ =>
    if atOneOf ["crate", "self", "super"] inner && inner.length == 1 then return head ++ (← anyGroup)
    else if atWord "in" inner then
      return head ++ (← group .parenthesis do
        let between ← word "in"
        return between ++ (← plainPath))
    else return head
  | _ => return head

/-- The visibility that stands in front, without reading it. -/
def peekVisibility : Parser (Trees × List Token) := do
  let r ← get
  let found ← visibility
  let behind ← remaining
  set r
  return (found, behind)

/-- The first type argument of a type that is a path to `Result`. -/
def successArgument? (type : Tree) : Option (List Token) :=
  match type with
  | .node .path segments =>
    match segments.getLast? with
    | some (.node .segment [.leaf (.word "Result"), .node .arguments arguments]) =>
      (arguments.find? (·.kind == .typeArgument)).map Tree.tokens
    | _ => none
  | _ => none

def Output.ofTree (type : Tree) : Output :=
  ⟨type.tokens, successArgument? type⟩

/-- The name that a pattern is, if it is no more than a name. -/
def boundName? (pattern : Tree) : Option Name :=
  match pattern with
  | .node .binding [.leaf (.word name)] => Name.ofWord? name
  | .node .binding [.leaf (.word "mut"), .leaf (.word name)] => Name.ofWord? name
  | _ => none

/-- Reads the receiver of a method up to its type, and whether it is a reference. A path that begins with `self` is
none. -/
def receiverHead : Parser (Trees × Bool) := do
  let isReference := atOperator "&" (← remaining)
  let sign ← if isReference then pure ((← operator "&") ++ (← optionalLifetime)) else pure []
  let mutable ← optionalWord "mut"
  let self ← word "self"
  if atOperator "::" (← remaining) then misplaced "expected a receiver"
  else return (sign ++ mutable ++ self, isReference)

/-- A parameter as it is read: with the trees inside it, and the comma behind it. -/
structure ReadInput where
  /-- The parameter, or the tokens of the variadic one. -/
  content : Input ⊕ List Token
  inside : Trees
  hasComma : Bool

namespace ReadInput

/-- The parameter, unless it is variadic. -/
def input? (r : ReadInput) : Option Input :=
  match r.content with
  | .inl input => some input
  | .inr _ => none

def variadic (r : ReadInput) : List Token :=
  match r.content with
  | .inl _ => []
  | .inr tokens => tokens

end ReadInput

namespace Recur

variable (rec : Recur)

def receiver : Parser Trees := do
  let (head, isReference) ← receiverHead
  if !isReference && atOperator ":" (← remaining) then
    let colon ← operator ":"
    return head ++ colon ++ [← rec.anyType]
  else return head

/-- The comma behind the last parameter, which needs none. -/
def optionalComma : Parser Trees := do
  if (← remaining).isEmpty then return [] else operator ","

/-- The three dots of a variadic parameter, behind what stands in front of them. -/
def variadicInput (head : Trees) : Parser ReadInput := do
  let dots ← operator "..."
  let comma ← optionalComma
  return ⟨.inr (Tree.tokensOf (head ++ dots ++ comma)), head, !comma.isEmpty⟩

/-- A parameter with a pattern and a type. A type alone stands for one whose value is not used. -/
def typedInput (attributes : Trees) : Parser ReadInput := do
  let tokens ← remaining
  let parsed := Attribute.ofTrees attributes
  if atName tokens && atOperator "<" (tokens.drop 1) then
    let type ← rec.anyType
    let comma ← optionalComma
    return ⟨.inl (.typed ⟨parsed, [.word "_"], none, type.tokens⟩), attributes ++ [type], !comma.isEmpty⟩
  let pattern ← rec .pattern
  let colon ← operator ":"
  if atOperator "..." (← remaining) then variadicInput (attributes ++ pattern :: colon)
  else
    let type ← rec.anyType
    let comma ← optionalComma
    return ⟨.inl (.typed ⟨parsed, pattern.tokens, boundName? pattern, type.tokens⟩),
      attributes ++ [pattern, type], !comma.isEmpty⟩

/-- A parameter, where `isFirst` tells that none is in front of it; a receiver stands only there. -/
def input (isFirst : Bool) : Parser ReadInput := do
  let attributes ← rec.outerAttributes
  if atOperator "..." (← remaining) then variadicInput attributes
  else match ← attempt rec.receiver with
    | some self =>
      if !isFirst then rejected "unexpected method receiver"
      else
        let comma ← optionalComma
        return ⟨.inl (.receiver (Attribute.ofTrees attributes) (Tree.tokensOf self)), attributes ++ self,
          !comma.isEmpty⟩
    | none => rec.typedInput attributes

def inputs : Parser (List ReadInput) := do
  let total := (← remaining).length
  collect do
    let tokens ← remaining
    if tokens.isEmpty then return ([], false)
    let input ← rec.input (tokens.length == total)
    return ([input], input.input?.isSome)

/-- A signature, and the trees inside it. -/
def signature : Parser (Signature × Trees) := do
  let constness ← optionalWord "const"
  let asyncness ← optionalWord "async"
  let unsafety ← optionalWord "unsafe"
  let convention ← linkage
  let _ ← word "fn"
  let name ← name
  let (generics, _) ← rec.generics
  let inputs ← within .parenthesis rec.inputs
  let output ← rec.returnType true
  let (clause, _) ← rec.whereClause
  let typed := inputs.filter (·.input?.isSome)
  let signature : Signature := {
    isConst := !constness.isEmpty
    isAsync := !asyncness.isEmpty
    isUnsafe := !unsafety.isEmpty
    linkage := Tree.tokensOf convention
    name
    generics := generics.map (·.parameter)
    inputs := inputs.filterMap (·.input?)
    endsInComma := typed.getLast?.any (·.hasComma)
    variadic := inputs.flatMap (·.variadic)
    output? := output.getLast?.map Output.ofTree
    bounds := Tree.tokensOf clause }
  return (signature, GenericTree.list generics ++ clause ++ inputs.flatMap (·.inside) ++ output)

/-- The body of a function of which all else is read: the function as an item, and the trees inside it. -/
def restOfFunction (attributes visibility defaultness : Trees) (signature : Signature) (inside : Trees) :
    Parser (FunctionItem × Trees) := do
  let (inner, statements) ← rec.blockInside
  let item : FunctionItem := {
    attributes := Attribute.ofTrees (attributes ++ inner)
    visibility := Tree.tokensOf visibility
    defaultness := Tree.tokensOf defaultness
    signature
    body := statements.tokens }
  return (item, attributes ++ inner ++ inside ++ [statements])

def functionItem : Parser (FunctionItem × Trees) := do
  let attributes ← rec.outerAttributes
  let visibility ← visibility
  let (signature, inside) ← rec.signature
  rec.restOfFunction attributes visibility [] signature inside

end Recur

end CommandBinding.Source
