import CommandBinding.Source.Grammar.Type

/-!
Generic parameters, which an item declares in angle brackets and a bound, a function type or a closure behind `for`, and
the clause of bounds behind `where`. The parameters of an item are written lifetimes first, those behind `for` in the
order of the source.
-/
namespace CommandBinding.Source

open CommandBinding.Source.Parser

/-- A generic parameter in trees: whether it is a lifetime, its head, its default and the comma behind it. -/
structure GenericTree where
  isLifetime : Bool
  head : Trees
  default : Trees
  comma : Trees

namespace GenericTree

def parameter (g : GenericTree) : GenericParameter :=
  ⟨g.isLifetime, Tree.tokensOf g.head, Tree.tokensOf g.default, Tree.tokensOf g.comma⟩

/-- A parameter list in angle brackets. An empty list is not written. -/
def list (items : List GenericTree) : Trees :=
  if items.isEmpty then []
  else
    let tokens := GenericParameter.list (items.map (·.parameter.withDefault))
    [.written tokens (items.flatMap fun g => g.head ++ g.default)]

end GenericTree

def endsParameterBounds (tokens : List Token) : Bool :=
  tokens.isEmpty || atOperator "," tokens || atOperator ">" tokens || atOperator "=" tokens

def endsClauseBounds (tokens : List Token) : Bool :=
  tokens.isEmpty || atGroup .brace tokens || (atOperator ":" tokens && !atOperator "::" tokens) ||
    [",", ";", "="].any (atOperator · tokens)

namespace Recur

variable (rec : Recur)

/-- A generic parameter up to its comma: whether it is a lifetime, its head and its default. A parameter without a name
stands only where `allowsBlank`. -/
def genericParameter (allowsBlank : Bool) : Parser (Bool × Trees × Trees) := do
  let attributes ← rec.outerAttributes
  let tokens ← remaining
  if atLifetime tokens then
    let name ← lifetime
    if atOperator ":" (← remaining) then
      let colon ← operator ":"
      let bounds ← boundsUntil endsParameterBounds lifetime
      return (true, attributes ++ name ++ (if bounds.isEmpty then [] else colon ++ bounds), [])
    else return (true, attributes ++ name, [])
  else if atName tokens then
    let name ← nameLeaf
    let colon ← optionalOperator ":"
    let bounds ← if colon.isEmpty then pure [] else boundsUntil endsParameterBounds rec.plainBound
    let default ←
      if atOperator "=" (← remaining) then
        let equals ← operator "="
        pure (equals ++ [← rec.anyType])
      else pure []
    return (false, attributes ++ name ++ (if bounds.isEmpty then [] else colon ++ bounds), default)
  else if atWord "const" tokens then
    let head ← anyToken
    let name ← nameLeaf
    let colon ← operator ":"
    let type ← rec.anyType
    let default ←
      if atOperator "=" (← remaining) then
        let equals ← operator "="
        pure (equals ++ (← rec.constantArgument))
      else pure []
    return (false, attributes ++ head ++ name ++ colon ++ [type], default)
  else if allowsBlank && atWord "_" tokens then return (false, attributes ++ (← anyToken), [])
  else if allowsBlank then misplaced "expected one of: lifetime, identifier, `const`"
  else misplaced "expected one of: identifier, lifetime, `const`"

/-- Generic parameters behind `for`, in the order of the source. -/
def binder : Parser Tree := do
  let head ← word "for"
  let opening ← operator "<"
  let parameters ← collect do
    if atOperator ">" (← remaining) then return ([], false)
    let (_, parameter, default) ← rec.genericParameter false
    if atOperator ">" (← remaining) then return (parameter ++ default, false)
    return (parameter ++ default ++ (← operator ","), true)
  return Tree.part (head ++ opening ++ parameters ++ (← operator ">"))

/-- Generic parameters, if an angle bracket stands in front; and whether it does. -/
def generics : Parser (List GenericTree × Bool) := do
  if !atOperator "<" (← remaining) then return ([], false)
  let _ ← operator "<"
  let items ← collect do
    if atOperator ">" (← remaining) then return ([], false)
    let (isLifetime, head, default) ← rec.genericParameter true
    if atOperator ">" (← remaining) then return ([(⟨isLifetime, head, default, []⟩ : GenericTree)], false)
    return ([⟨isLifetime, head, default, ← operator ","⟩], true)
  let _ ← operator ">"
  return (items, true)

/-- A bound of a clause: what is bounded, and its bounds. -/
def clauseBound : Parser Trees := do
  let tokens ← remaining
  if atLifetime tokens && atOperator ":" (tokens.drop 1) then
    let name ← lifetime
    let colon ← operator ":"
    return name ++ colon ++ (← boundsUntil endsClauseBounds lifetime)
  else
    let binder ← rec.optionalBinder
    let type ← rec.anyType
    let colon ← operator ":"
    return binder ++ type :: colon ++ (← boundsUntil endsClauseBounds rec.plainBound)

/-- The clause behind `where`, and whether there is one. It has no generic parameters of its own, and a clause without
bounds is not written. -/
def whereClause : Parser (Trees × Bool) := do
  if !atWord "where" (← remaining) then return ([], false)
  let head ← anyToken
  if atGenericParameters (← remaining) then
    rejected "generic parameters on `where` clauses are reserved for future use"
  let bounds ← collect do
    if endsClauseBounds (← remaining) then return ([], false)
    let bound ← rec.clauseBound
    if atOperator "," (← remaining) then return (bound ++ (← operator ","), true) else return (bound, false)
  return (if bounds.isEmpty then [] else head ++ bounds, true)

end Recur

end CommandBinding.Source
