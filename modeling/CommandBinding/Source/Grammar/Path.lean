import CommandBinding.Source.Grammar.Attribute

/-!
Paths, their generic arguments, and bounds. In a type the arguments of a segment follow its name; in an expression
two colons have to stand between them. However arguments are ordered, lifetimes are written first.
-/
namespace CommandBinding.Source

open CommandBinding.Source.Parser

/-- Reads list members and the commas between them up to a closing angle bracket. -/
def angleList (item : Parser (Bool × Trees)) : Parser (List (ListItem Tree)) :=
  collect do
    if atOperator ">" (← remaining) then return ([], false)
    let (isLifetime, trees) ← item
    if atOperator ">" (← remaining) then return ([⟨isLifetime, trees, []⟩], false)
    return ([⟨isLifetime, trees, ← operator ","⟩], true)

def inAngles (item : Parser (Bool × Trees)) : Parser Trees := do
  let opening ← operator "<"
  let items ← angleList item
  let closing ← operator ">"
  return opening ++ ListItem.lifetimesFirst (Tree.operator ",") items ++ closing

/-- Whether the path of a type is one segment, without colons in front. -/
def isOneSegment : Tree → Bool
  | .node .path [.node .segment _] => true
  | _ => false

def isPlainPath (path : Trees) : Bool :=
  path.all fun
    | .node .segment [_] => true
    | .node _ _ => false
    | _ => true

/-- The name of a segment that has no generic arguments; brackets may stand behind it if they are empty. -/
def bareSegment? : Tree → Option Tree
  | .node .segment [name] => some (.node .segment [name])
  | .node .segment [name, .node .arguments marks] =>
    if marks.all (· matches .leaf (.mark _ _)) then some (.node .segment [name]) else none
  | _ => none

/-- Whether generic parameters stand in front, and not the self type of a path. Where both are possible, they are
parameters. -/
def atGenericParameters (tokens : List Token) : Bool :=
  let second := tokens.drop 1
  let third := tokens.drop 2
  atOperator "<" tokens && (atOperator ">" second || atOperator "#" second || atWord "const" second ||
    ((atLifetime second || atName second) && (atOperator ">" third || atOperator "," third ||
      (atOperator ":" third && !atOperator "::" third) || atOperator "=" third)))

namespace Recur

variable (rec : Recur)

/-- The inside of braces: attributes of what encloses them, and statements. -/
def blockInside : Parser (Trees × Tree) :=
  within .brace do
    let attributes ← rec.innerAttributes
    return (attributes, ← rec .statements)

/-- What ends in a block that may hold attributes. They belong to the whole, so they come first. -/
def blockBehind (head : Trees) : Parser Trees := do
  let (attributes, statements) ← rec.blockInside
  return [.reordered (head ++ [.group .brace (attributes ++ [statements])]) (attributes ++ head ++ [statements])]

def plainBlock : Parser Trees :=
  group .brace do
    return [← rec .statements]

/-- A constant as a generic argument: a literal, a name or a block. -/
def constantArgument : Parser Trees := do
  let tokens ← remaining
  if atLiteral tokens then return [.node .literal (← literal)]
  else if atName tokens then return [.node .path [.node .segment (← nameLeaf)]]
  else if atGroup .brace tokens then return [.node .blockLike (← rec.blockBehind [])]
  else misplaced "expected one of: literal, identifier, curly braces"

/-- Generic parameters behind `for`, if it stands in front. -/
def optionalBinder : Parser Trees := do
  if atWord "for" (← remaining) then return [← rec .binder] else return []

/-- The result type behind an arrow, if there is one. -/
def returnType (allowsPlus : Bool) : Parser Trees := do
  if atOperator "->" (← remaining) then
    let arrow ← operator "->"
    return arrow ++ [← rec (.type allowsPlus)]
  else return []

/-- Argument types in parentheses, and the result type. -/
def functionArguments : Parser Trees := do
  let arguments ← group .parenthesis (commaSeparated do return [← rec.anyType])
  return arguments ++ (← rec.returnType false)

end Recur

/-- Whether a call of what is built into the language stands in front. -/
def atBuiltin (tokens : List Token) : Bool :=
  atWord "builtin" tokens && atOperator "#" (tokens.drop 1)

/-- Reads a call of what is built into the language. Its arguments are any tokens. -/
def builtin : Parser Unit := do
  let _ ← word "builtin"
  let _ ← operator "#"
  let _ ← name
  let _ ← group .parenthesis (toEnd anyToken)

/-- The names of the parameters that a type captures, behind `use`. -/
def capture : Parser Trees := do
  let head ← word "use"
  let names ← inAngles do
    if atLifetime (← remaining) then return (true, ← lifetime)
    else if atWord "Self" (← remaining) then return (false, ← anyToken)
    else return (false, ← nameLeaf)
  return head ++ names

/-- Bounds joined by plus signs; `ends` tells where none follows. -/
def boundsUntil (ends : List Token → Bool) (bound : Parser Trees) : Parser Trees :=
  collect do
    if ends (← remaining) then return ([], false)
    let first ← bound
    if atOperator "+" (← remaining) then return (first ++ (← operator "+"), true) else return (first, false)

/-- Whether another bound stands in front, and not the end of the bounds behind a plus sign. -/
def isBoundStart (allowsConstant : Bool) (tokens : List Token) : Bool :=
  atAnyWord tokens || atOperator "::" tokens || atOperator "?" tokens || atLifetime tokens ||
    atGroup .parenthesis tokens || (allowsConstant && atGroup .bracket tokens)

/-- The mark of a bound that has to hold in constant code: `const`, or `[const]` where that depends on the code
around it. -/
def constantMark : Parser Trees := do
  if atGroup .bracket (← remaining) then group .bracket (word "const") else optionalWord "const"

namespace Recur

variable (rec : Recur)

def argument : Parser (Bool × Trees) := do
  match ← rec .genericArgument with
  | .leaf token => return (true, [.leaf token])
  | tree => return (false, [tree])

def segment (isExpression : Bool) : Parser Tree := do
  let tokens ← remaining
  if atOneOf ["super", "self", "crate", "try"] tokens then return .node .segment (← anyToken)
  let head ← if atWord "Self" tokens then anyToken else nameLeaf
  let tokens ← remaining
  let isOpen := !isExpression && atOperator "<" tokens && !atOperator "<=" tokens && !atOperator "<<=" tokens
  if isOpen || (atOperator "::" tokens && atOperator "<" (tokens.drop 2)) then
    let colons ← optionalOperator "::"
    let arguments ← inAngles rec.argument
    return .node .segment (head ++ [.node .arguments (colons ++ arguments)])
  else return .node .segment head

def path (isExpression : Bool) : Parser Trees := do
  let root ← optionalOperator "::"
  let segments ← collect do
    let segment ← rec.segment isExpression
    let tokens ← remaining
    if atOperator "::" tokens && !atGroup .parenthesis (tokens.drop 2) then
      return (segment :: (← operator "::"), true)
    else return ([segment], false)
  return root ++ segments

/-- A bound that names a trait, and whether it has to hold in constant code. -/
def traitBound (allowsConstant : Bool) : Parser (Trees × Bool) := do
  let before ← rec.optionalBinder
  let mark ← constantMark
  if !mark.isEmpty && !allowsConstant then
    rejected ("`" ++ Tree.textOf mark ++ "` is not allowed here")
  let modifier ← optionalOperator "?"
  if !before.isEmpty && !modifier.isEmpty then
    rejected "`for<...>` binder not allowed with `?` trait polarity modifier"
  let path ← rec.path false
  let tokens ← remaining
  let hasArguments := atGroup .parenthesis tokens ||
    (atOperator "::" tokens && atGroup .parenthesis (tokens.drop 2))
  let path ←
    match path.getLast?.bind bareSegment? with
    | some last =>
      if hasArguments then
        let _ ← optionalOperator "::"
        pure (path.dropLast ++ last :: (← rec.functionArguments))
      else pure path
    | none => pure path
  return (before ++ mark ++ modifier ++ path, !mark.isEmpty)

/-- A bound: a lifetime, captured names, or a trait, which may stand in parentheses. One that has to hold in constant
code is kept as it is written. -/
def bound (allowsCapture allowsConstant : Bool) : Parser Trees := do
  let tokens ← remaining
  if atLifetime tokens then lifetime
  else if atWord "use" tokens then
    if allowsCapture then capture
    else rejected "`use<...>` precise capturing syntax is not allowed here"
  else
    let (trees, isConstant) ←
      if atGroup .parenthesis tokens then
        let (trees, isConstant) ← within .parenthesis (rec.traitBound allowsConstant)
        pure ([Tree.group .parenthesis trees], isConstant)
      else rec.traitBound allowsConstant
    if isConstant then return [← keptSince tokens] else return trees

end Recur

end CommandBinding.Source
