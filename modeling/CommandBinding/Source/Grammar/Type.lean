import CommandBinding.Source.Grammar.Path

/-!
Types. A path in a type takes no arguments in parentheses; only a bound does, so `Fn(u8)` alone is no type, but
`dyn Fn(u8)` and `impl Fn(u8) -> u8` are.
-/
namespace CommandBinding.Source

open CommandBinding.Source.Parser

/-- Whether a bound names a trait, and no lifetime and no captured names. -/
def namesTrait : Trees → Bool
  | [.leaf (.lifetime _)] => false
  | .leaf (.word "use") :: _ => false
  | _ => true

def writtenBounds (bounds : List (Trees × Trees)) : Trees :=
  bounds.flatMap fun (bound, plus) => bound ++ plus

/-- A bound in parentheses, of which a bound that has its own needs no more. -/
def inOneParenthesis : Trees → Trees
  | [.node (.bounds true) [.group .parenthesis inner]] => [.group .parenthesis inner]
  | trees => [.group .parenthesis trees]

def boundsKind (bounds : List (Trees × Trees)) : Kind :=
  match bounds with
  | [(_, [])] => .bounds true
  | _ => .bounds false

namespace Recur

variable (rec : Recur)

/-- A path behind a self type: `<Type as Trait>::Name`. -/
def selfPath (isExpression : Bool) : Parser Trees := do
  let opening ← operator "<"
  let self ← rec.anyType
  let trait ←
    if atWord "as" (← remaining) then
      let as ← word "as"
      pure (as ++ (← rec.path false))
    else pure []
  let closing ← operator ">"
  let colons ← operator "::"
  let segments ← collect do
    let segment ← rec.segment isExpression
    if atOperator "::" (← remaining) then return (segment :: (← operator "::"), true)
    else return ([segment], false)
  return opening ++ [self] ++ trait ++ closing ++ colons ++ segments

/-- A path, and whether it stands behind a self type. -/
def anyPath (isExpression : Bool) : Parser (Bool × Trees) := do
  if atOperator "<" (← remaining) then return (true, ← rec.selfPath isExpression)
  else return (false, ← rec.path isExpression)

def plainBound : Parser Trees :=
  rec.bound false true

/-- An argument of the form `Name = Type`, `Name = constant` or `Name: Bounds`, or a type alone. -/
def typeArgument : Parser Tree := do
  let type ← rec.anyType
  let tokens ← remaining
  if isOneSegment type && atOperator "=" tokens then
    let equals ← operator "="
    let tokens ← remaining
    let value ←
      if atLiteral tokens || atGroup .brace tokens then rec.constantArgument else pure [← rec.anyType]
    return Tree.part (type :: equals ++ value)
  else if isOneSegment type && atOperator ":" tokens then
    let colon ← operator ":"
    let ends := fun tokens => atOperator "," tokens || atOperator ">" tokens
    return Tree.part (type :: colon ++ (← boundsUntil ends rec.plainBound))
  else return .node .typeArgument [type]

def genericArgument : Parser Tree := do
  match ← remaining with
  | .lifetime name :: rest =>
    if atOperator "+" rest then rec.typeArgument
    else
      advance rest
      return .leaf (.lifetime name)
  | tokens =>
    if atLiteral tokens || atGroup .brace tokens then return Tree.part (← rec.constantArgument)
    else rec.typeArgument

/-- Bounds joined by plus signs: each with the sign behind it. Behind `impl` they may capture names and have to hold in
constant code. -/
def jointBounds (allowsPlus isImpl : Bool) : Parser (List (Trees × Trees)) :=
  collect do
    let bound ← rec.bound isImpl isImpl
    if allowsPlus && atOperator "+" (← remaining) then
      let plus ← operator "+"
      return ([(bound, plus)], isBoundStart isImpl (← remaining))
    else return ([(bound, [])], false)

/-- Bounds that stand as a type; one of them has to be a trait. -/
def traitObject (allowsPlus isImpl : Bool) (message : String) : Parser (List (Trees × Trees)) := do
  let bounds ← rec.jointBounds allowsPlus isImpl
  if bounds.any fun (bound, _) => namesTrait bound then return bounds else rejected message

def objectBounds (allowsPlus : Bool) : Parser (List (Trees × Trees)) :=
  rec.traitObject allowsPlus false "at least one trait is required for an object type"

/-- More bounds, each behind a plus sign. -/
def moreBounds : Parser Trees :=
  collectWhile (atOperator "+") do
    let plus ← operator "+"
    return plus ++ (← rec.bound false false)

/-- Types and commas up to the end of the bracket, of which the first is there. -/
def restOfTuple (first : Tree) : Parser Trees := do
  let comma ← operator ","
  return first :: comma ++ (← commaSeparated do return [← rec.anyType])

def parenthesizedType (allowsPlus : Bool) : Parser Tree := do
  let inside := match ← remaining with
    | .group _ inner :: _ => inner
    | _ => []
  if inside.isEmpty then return .node .type (← anyGroup)
  else if atLifetime inside then
    return .node .type (← group .parenthesis do return writtenBounds (← rec.objectBounds true))
  else if atOperator "?" inside then
    let first ← rec.bound false false
    let more ← rec.moreBounds
    return .node (.bounds more.isEmpty) (first ++ more)
  else
    let (kind?, trees) ← within .parenthesis do
      let first ← rec.anyType
      if atOperator "," (← remaining) then return (none, ← rec.restOfTuple first)
      else return (some first.kind, [first])
    let isBound := kind? = some .path || kind? = some (.bounds true)
    if isBound && allowsPlus && atOperator "+" (← remaining) then
      return .node (.bounds false) (inOneParenthesis trees ++ (← rec.moreBounds))
    else return .node .type [.group .parenthesis trees]

/-- A parameter of a function type: a name if there is one, and a type. A receiver that is mutable stands only in front,
has a type only behind a name, and is kept as it is written. -/
def functionTypeParameter (isFirst : Bool) : Parser Trees := do
  let start ← remaining
  let atMutableSelf := fun tokens => isFirst && atWord "mut" tokens && atWord "self" (tokens.drop 1)
  let mutable ← if atMutableSelf start then word "mut" else pure []
  let tokens ← remaining
  let behind := tokens.drop 1
  let isSelf := isFirst && atWord "self" tokens
  let isLabel := (atName tokens || atWord "_" tokens || isSelf) && atOperator ":" behind && !atOperator "::" behind
  let label ← if isLabel then pure ((← anyToken) ++ (← operator ":")) else pure []
  if !mutable.isEmpty then
    if isLabel then
      let _ ← rec.anyType
    else
      let _ ← word "self"
    return [← keptSince start]
  else if !isSelf && atMutableSelf (← remaining) then
    let _ ← word "mut"
    let _ ← word "self"
    return [← keptSince start]
  else return label ++ [← rec.anyType]

/-- The parameters of a function type. Three dots may end them. -/
def functionTypeParameters : Parser Trees := do
  let total := (← remaining).length
  collect do
    let tokens ← remaining
    if tokens.isEmpty then return ([], false)
    let attributes ← rec.outerAttributes
    let tokens' ← remaining
    let behind := tokens'.drop 1
    let isLabel := atName tokens' || atWord "_" tokens'
    if atOperator "..." tokens' then
      return (attributes ++ (← operator "...") ++ (← optionalOperator ","), false)
    else if isLabel && atOperator ":" behind && atOperator "..." (behind.drop 1) then
      let label ← anyToken
      let colon ← operator ":"
      return (attributes ++ label ++ colon ++ (← operator "...") ++ (← optionalOperator ","), false)
    else
      let parameter ← rec.functionTypeParameter (tokens.length == total)
      if (← remaining).isEmpty then return (attributes ++ parameter, false)
      return (attributes ++ parameter ++ (← operator ","), true)

/-- The calling convention of a function: `extern`, and its name if it has one. -/
def linkage : Parser Trees := do
  let tokens ← remaining
  if atWord "extern" tokens then
    let head ← anyToken
    let name ← if atString (← remaining) then anyToken else pure []
    return head ++ name
  else return []

def functionType (binder : Trees) : Parser Tree := do
  let unsafety ← optionalWord "unsafe"
  let convention ← linkage
  let head ← word "fn"
  let parameters ← group .parenthesis rec.functionTypeParameters
  return .node .type (binder ++ unsafety ++ convention ++ head ++ parameters ++ (← rec.returnType false))

/-- A type that begins with a path: the path, a macro call, or bounds without a keyword. -/
def pathType (allowsPlus : Bool) (binder : Trees) : Parser Tree := do
  let (hasSelf, path) ← rec.anyPath false
  if hasSelf then return .node .type path
  let tokens ← remaining
  if atOperator "!" tokens && !atOperator "!=" tokens && isPlainPath path then
    let bang ← operator "!"
    return .node .type (path ++ bang ++ (← anyGroup))
  else if !binder.isEmpty || (allowsPlus && atOperator "+" tokens) then
    if allowsPlus && atOperator "+" tokens then
      let plus ← operator "+"
      let more ←
        if isBoundStart false (← remaining) then pure (writtenBounds (← rec.jointBounds true false)) else pure []
      return .node (.bounds false) (binder ++ path ++ plus ++ more)
    else return .node (.bounds true) (binder ++ path)
  else return .node .path path

def arrayType : Parser Tree := do
  return .node .type (← group .bracket do
    let element ← rec.anyType
    if atOperator ";" (← remaining) then
      let semicolon ← operator ";"
      return element :: semicolon ++ [← rec.expression true]
    else return [element])

def pointerType : Parser Tree := do
  let star ← operator "*"
  let tokens ← remaining
  if atWord "const" tokens || atWord "mut" tokens then
    let access ← anyToken
    return .node .type (star ++ access ++ [← rec (.type false)])
  else misplaced "expected `const` or `mut`"

def referenceType : Parser Tree := do
  let sign ← operator "&"
  let lifetime ← optionalLifetime
  let mutable ← optionalWord "mut"
  return .node .type (sign ++ lifetime ++ mutable ++ [← rec (.type false)])

/-- An object type behind `dyn`. With a star it is kept as it is written. -/
def dynamicType (allowsPlus : Bool) : Parser Tree := do
  let start ← remaining
  let head ← word "dyn"
  let star ← optionalOperator "*"
  let bounds ← rec.objectBounds allowsPlus
  if star.isEmpty then return .node .type (head ++ writtenBounds bounds)
  else return .node .type [← keptSince start]

/-- A type that is known by its bounds, behind `impl`. -/
def boundedType (allowsPlus : Bool) : Parser Tree := do
  let head ← word "impl"
  let bounds ← rec.traitObject allowsPlus true "at least one trait must be specified"
  return .node .type (head ++ writtenBounds bounds)

def typeExpectation : String :=
  "expected one of: `for`, parentheses, `fn`, `unsafe`, `extern`, identifier, `::`, `<`, `dyn`, " ++
    "square brackets, `*`, `&`, `!`, `impl`, `_`, lifetime"

def type (allowsPlus : Bool) : Parser Tree := do
  let start ← remaining
  let binder ← rec.optionalBinder
  let tokens ← remaining
  let isFunction := atOneOf ["fn", "unsafe", "extern"] tokens
  let isPath := atName tokens || atPathWord tokens
  if !binder.isEmpty && (atWord "dyn" tokens || !(isFunction || isPath)) then
    misplaced "expected one of: identifier, `fn`, `unsafe`, `extern`, `super`, `self`, `Self`, `crate`"
  else if atGroup .parenthesis tokens then rec.parenthesizedType allowsPlus
  else if isFunction then rec.functionType binder
  else if atBuiltin tokens then
    builtin
    return .node .type [← keptSince start]
  else if isPath || atOperator "::" tokens || atOperator "<" tokens then rec.pathType allowsPlus binder
  else if atWord "dyn" tokens then rec.dynamicType allowsPlus
  else if atGroup .bracket tokens then rec.arrayType
  else if atOperator "*" tokens then rec.pointerType
  else if atOperator "&" tokens then rec.referenceType
  else if atOperator "!" tokens then return .node .type (← operator "!")
  else if atWord "impl" tokens then rec.boundedType allowsPlus
  else if atWord "_" tokens then return .node .type (← anyToken)
  else if atLifetime tokens then
    let bounds ← rec.objectBounds true
    return .node (boundsKind bounds) (writtenBounds bounds)
  else misplaced typeExpectation

end Recur

end CommandBinding.Source
