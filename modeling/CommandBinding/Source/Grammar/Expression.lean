import CommandBinding.Source.Grammar.Operator
import CommandBinding.Source.Grammar.Pattern

/-!
Expressions. An operand is an atom with the calls, fields, indices and question marks behind it; operations join
operands by precedence. Every expression is one node.
-/
namespace CommandBinding.Source

open CommandBinding.Source.Parser

def plainExpression (trees : Trees) : Tree :=
  .node .expression trees

def blockExpression (trees : Trees) : Tree :=
  .node .blockLike trees

/-- Whether an expression ends a statement or a match arm without a mark. -/
def isBlockLike (expression : Tree) : Bool :=
  expression.expressionKind == .blockLike

def endsInBraces (expression : Tree) : Bool :=
  match expression.tokens.getLast? with
  | some (.group .brace _) => true
  | _ => false

def behindCast? (tokens : List Token) : Option String :=
  if atOperator "." tokens && !atOperator ".." tokens then
    if atWord "await" (tokens.drop 1) then some "`.await`"
    else if atName (tokens.drop 1) &&
        (atGroup .parenthesis (tokens.drop 2) || atOperator "::" (tokens.drop 2)) then some "a method call"
    else some "a field access"
  else if atOperator "?" tokens then some "`?`"
  else if atGroup .bracket tokens then some "indexing"
  else if atGroup .parenthesis tokens then some "a function call"
  else none

/-- The places that a float names behind a dot: `x.0.1` is a field of a field. -/
def placesOf (float : String) : List String :=
  (float.splitOn ".").filter (· != "")

def placeLeaves : List String → Option Trees
  | [] => some []
  | [place] => (fieldNumber? place).map fun n => [.leaf (.literal (toString n))]
  | place :: rest => do
    let n ← fieldNumber? place
    return .leaf (.literal (toString n)) :: Tree.operator "." ++ (← placeLeaves rest)

namespace Recur

variable (rec : Recur)

def callArguments : Parser Trees :=
  group .parenthesis (commaSeparated do return [← rec.expression true])

def turbofish : Parser Trees := do
  let colons ← operator "::"
  let arguments ← inAngles rec.argument
  return colons ++ arguments

def behindDot : Parser Trees := do
  let tokens ← remaining
  match tokens with
  | .literal text :: rest =>
    if isNumber text && Number.isFloat text then
      match placeLeaves (placesOf text) with
      | some leaves =>
        advance rest
        if text.endsWith "." then return leaves ++ Tree.operator "." ++ (← afterPlaces) else return leaves
      | none => rejected "expected unsuffixed integer"
    else afterPlaces
  | _ => afterPlaces
where
  /-- A field or a method. -/
  afterPlaces : Parser Trees := do
    if atWord "await" (← remaining) then return ← anyToken
    let member ← member
    let arguments ←
      if isNamedMember member && atOperator "::" (← remaining) then rec.turbofish else pure []
    if isNamedMember member && (!arguments.isEmpty || atGroup .parenthesis (← remaining)) then
      return member ++ arguments ++ (← rec.callArguments)
    else return member

/-- The calls, fields, indices and question marks behind an atom. -/
def trailers (atom : Tree) : Parser Tree := do
  let isRange := atom.kind == .range
  let trees ← collect do
    let tokens ← remaining
    if atGroup .parenthesis tokens then return (← rec.callArguments, true)
    else if atOperator "." tokens && !atOperator ".." tokens && !isRange then
      let dot ← operator "."
      return (dot ++ (← rec.behindDot), true)
    else if atGroup .bracket tokens then
      return (← group .bracket do return [← rec.expression true], true)
    else if atOperator "?" tokens && !isRange then return (← operator "?", true)
    else return ([], false)
  return if trees.isEmpty then atom else plainExpression (atom :: trees)

/-- Fields of a structure, which two dots and an expression may end. -/
def fieldValues : Parser Trees :=
  collect do
    let tokens ← remaining
    if tokens.isEmpty then return ([], false)
    if atOperator ".." tokens then
      let dots ← operator ".."
      if (← remaining).isEmpty then return (dots, false)
      return (dots ++ [← rec.expression true], false)
    let attributes ← rec.outerAttributes
    let member ← member
    let value ←
      if atOperator ":" (← remaining) || !isNamedMember member then
        let colon ← operator ":"
        pure (colon ++ [← rec.expression true])
      else pure []
    let field := attributes ++ member ++ value
    if (← remaining).isEmpty then return (field, false)
    return (field ++ (← operator ","), true)

/-- An expression that begins with a path: a macro call, a structure or the path. -/
def pathExpression (allowsStructure : Bool) : Parser Tree := do
  let (hasSelf, path) ← rec.anyPath true
  let tokens ← remaining
  if !hasSelf && atOperator "!" tokens && !atOperator "!=" tokens && isPlainPath path then
    let bang ← operator "!"
    let isBraced := atGroup .brace (← remaining)
    return .node (.macroCall isBraced) (path ++ bang ++ (← anyGroup))
  else if allowsStructure && atGroup .brace tokens then
    return plainExpression (path ++ (← group .brace rec.fieldValues))
  else return .node (if hasSelf then .expression else .path) path

/-- An expression in parentheses, or a tuple. -/
def parenthesized : Parser Tree := do
  return plainExpression (← group .parenthesis do
    if (← remaining).isEmpty then return []
    let first ← rec.expression true
    if (← remaining).isEmpty then return [first]
    let comma ← operator ","
    return first :: comma ++ (← commaSeparated do return [← rec.expression true]))

/-- An array, by its elements or by one element and their number. -/
def arrayExpression : Parser Tree := do
  let (kind, inside) ← within .bracket do
    if (← remaining).isEmpty then return (Kind.array, [])
    let first ← rec.expression true
    let tokens ← remaining
    if tokens.isEmpty then return (Kind.array, [first])
    else if atOperator "," tokens then
      let comma ← operator ","
      return (Kind.array, first :: comma ++ (← commaSeparated do return [← rec.expression true]))
    else if atOperator ";" tokens then
      let semicolon ← operator ";"
      return (Kind.expression, first :: semicolon ++ [← rec.expression true])
    else misplaced "expected `,` or `;`"
  return .node kind [.group .bracket inside]

def closureParameter : Parser Trees := do
  let attributes ← rec.outerAttributes
  let pattern ← rec .pattern
  if atOperator ":" (← remaining) then
    let colon ← operator ":"
    return attributes ++ pattern :: colon ++ [← rec.anyType]
  else return [pattern.withAttributes attributes]

/-- A closure. Its two bars are apart even if nothing stands between them. -/
def closure (allowsStructure : Bool) : Parser Tree := do
  let binder ← rec.optionalBinder
  let constness ← optionalWord "const"
  let movability ← optionalWord "static"
  let asyncness ← optionalWord "async"
  let capture ← optionalWord "move"
  let opening ← operator "|"
  let parameters ← collect do
    if atOperator "|" (← remaining) then return ([], false)
    let parameter ← rec.closureParameter
    if atOperator "|" (← remaining) then return (parameter, false)
    return (parameter ++ (← operator ","), true)
  let closing ← operator "|"
  let head := binder ++ constness ++ movability ++ asyncness ++ capture ++ opening ++ parameters ++ closing
  if atOperator "->" (← remaining) then
    let result ← rec.returnType true
    return plainExpression (head ++ result ++ [blockExpression (← rec.plainBlock)])
  else return plainExpression (head ++ [← rec.expression allowsStructure])

def letCondition (allowsStructure : Bool) : Parser Tree := do
  let head ← word "let"
  let pattern ← rec.anyPattern
  let equals ← operator "="
  let left ← rec (.operand allowsStructure)
  return plainExpression (head ++ pattern :: equals ++ [← rec (.operation left .compare allowsStructure)])

def ifExpression : Parser Tree := do
  return blockExpression (← collect do
    let head ← word "if"
    let condition ← rec.expression false
    let branch ← rec.plainBlock
    let clause := head ++ condition :: branch
    if atWord "else" (← remaining) then
      let other ← anyToken
      let tokens ← remaining
      if atWord "if" tokens then return (clause ++ other, true)
      else if atGroup .brace tokens then return (clause ++ other ++ [blockExpression (← rec.plainBlock)], false)
      else misplaced "expected `if` or curly braces"
    else return (clause, false))

def whileExpression : Parser Tree := do
  let head ← word "while"
  let condition ← rec.expression false
  return blockExpression (← rec.blockBehind (head ++ [condition]))

def forExpression : Parser Tree := do
  let head ← word "for"
  let pattern ← rec.anyPattern
  let between ← word "in"
  let sequence ← rec.expression false
  return blockExpression (← rec.blockBehind (head ++ pattern :: between ++ [sequence]))

/-- A block behind a word such as `unsafe`. -/
def wordBlock (text : String) : Parser Tree := do
  let head ← word text
  return blockExpression (← rec.blockBehind head)

def tryBlock : Parser Tree := do
  let head ← word "try"
  return blockExpression (head ++ (← rec.plainBlock))

def asyncBlock : Parser Tree := do
  let head ← word "async"
  let capture ← optionalWord "move"
  return plainExpression (head ++ capture ++ (← rec.plainBlock))

/-- A match arm: attributes, a pattern, a guard if there is one, and an expression. -/
def matchArm : Parser Trees := do
  let attributes ← rec.outerAttributes
  let pattern ← rec.anyPattern
  let guard ←
    if atWord "if" (← remaining) then
      let head ← anyToken
      pure (head ++ [← rec.expression true])
    else pure []
  let arrow ← operator "=>"
  let body ← rec .earlyExpression
  let comma ←
    if !isBlockLike body && !(← remaining).isEmpty then operator "," else optionalOperator ","
  return attributes ++ pattern :: guard ++ arrow ++ body :: comma

def matchExpression : Parser Tree := do
  let head ← word "match"
  let subject ← rec.expression false
  let (attributes, arms) ← within .brace do
    let attributes ← rec.innerAttributes
    return (attributes, ← toEnd rec.matchArm)
  return blockExpression [.reordered (head ++ [subject, .group .brace (attributes ++ arms)])
    (attributes ++ subject :: arms)]

/-- The expression that a jump such as `return` takes along, if one stands here. -/
def carried (allowsBrace : Bool) : Parser Trees := do
  let tokens ← remaining
  if beginsExpression tokens && (allowsBrace || !atGroup .brace tokens) then return [← rec.expression true]
  else return []

def breakExpression (allowsStructure : Bool) : Parser Tree := do
  let head ← word "break"
  let tokens ← remaining
  if atLifetime tokens && atOperator ":" (tokens.drop 1) then
    let _ ← rec.expression true
    rejected "parentheses required"
  else
    let label ← optionalLifetime
    return plainExpression (head ++ label ++ (← rec.carried allowsStructure))

end Recur

/-- Whether a loop over a sequence stands in front, and not a closure with generic parameters. -/
def atForLoop (tokens : List Token) : Bool :=
  atWord "for" tokens && !atGenericParameters (tokens.drop 1)

/-- Whether one of the expressions that end a statement without a semicolon stands in front. -/
def atBlockLike (tokens : List Token) : Bool :=
  let behind := tokens.drop 1
  atOneOf ["if", "while", "loop", "match", "unsafe"] tokens || atForLoop tokens ||
    (atOneOf ["try", "const"] tokens && atGroup .brace behind) || atGroup .brace tokens || atLifetime tokens

def atClosure (tokens : List Token) : Bool :=
  let behind := tokens.drop 1
  atOperator "|" tokens || atWord "move" tokens || (atWord "for" tokens && !atForLoop tokens) ||
    (atWord "const" tokens && !atGroup .brace behind) || atWord "static" tokens ||
    (atWord "async" tokens && (atOperator "|" behind || atWord "move" behind))

def atPath (tokens : List Token) : Bool :=
  let behind := tokens.drop 1
  atName tokens || atOperator "::" tokens || atOperator "<" tokens || atPathWord tokens ||
    (atWord "try" tokens && (atOperator "!" behind || atOperator "::" behind))

namespace Recur

variable (rec : Recur)

/-- An expression of those that end a statement without a semicolon. -/
def blockLike : Parser Tree := do
  let label ←
    if atLifetime (← remaining) then
      let label ← lifetime
      pure (label ++ (← operator ":"))
    else pure []
  let tokens ← remaining
  let takesLabel := atOneOf ["while", "for", "loop"] tokens || atGroup .brace tokens
  if !label.isEmpty && !takesLabel then misplaced "expected loop or block expression"
  else
    let expression ←
      if atWord "if" tokens then rec.ifExpression
      else if atWord "while" tokens then rec.whileExpression
      else if atWord "for" tokens then rec.forExpression
      else if atWord "loop" tokens then rec.wordBlock "loop"
      else if atWord "match" tokens then rec.matchExpression
      else if atWord "try" tokens then rec.tryBlock
      else if atWord "unsafe" tokens then rec.wordBlock "unsafe"
      else if atWord "const" tokens then rec.wordBlock "const"
      else pure (blockExpression (← rec.blockBehind []))
    return if label.isEmpty then expression else blockExpression (label ++ [expression])

/-- What operators that bind more tightly than one of that precedence make of the operand behind it. -/
def tighterOperation (allowsStructure : Bool) (precedence : Precedence) (operand : Tree) : Parser Tree :=
  iterate (fun right => do
    let tokens ← remaining
    let next := precedenceOf tokens
    if next.above precedence || (next = precedence && precedence = .assign) then
      let right ← rec (.operation right next allowsStructure)
      return (right, (← remaining).length != tokens.length)
    else return (right, false)) operand

def rightOperand (allowsStructure : Bool) (precedence : Precedence) : Parser Tree := do
  rec.tighterOperation allowsStructure precedence (← rec (.operand allowsStructure))

/-- A block that begins the upper bound of a range in a condition. It is written in parentheses, unless it has
attributes. -/
def blockOfBound : Parser Tree := do
  let (attributes, statements) ← rec.blockInside
  let block := plainExpression [.group .brace (attributes ++ [statements])]
  if attributes.isEmpty then return plainExpression [.group .parenthesis [block]] else return block

/-- The upper bound of a range, if one stands here. -/
def upperBound (range : Trees) (allowsStructure : Bool) : Parser Trees := do
  let tokens ← remaining
  if !isClosedRange range && endsRange allowsStructure tokens then return []
  else if !allowsStructure && atGroup .brace tokens then
    return [← rec.tighterOperation allowsStructure .range (← rec.trailers (← rec.blockOfBound))]
  else return [← rec.rightOperand allowsStructure .range]

/-- An atom: an expression without operators around it. -/
def atom (allowsStructure : Bool) : Parser Tree := do
  let tokens ← remaining
  let behind := tokens.drop 1
  if atLiteral tokens then return .node .literal (← literal)
  else if atWord "async" tokens &&
      (atGroup .brace behind || (atWord "move" behind && atGroup .brace (behind.drop 1))) then
    rec.asyncBlock
  else if atWord "try" tokens && atGroup .brace behind then rec.blockLike
  else if atClosure tokens then rec.closure allowsStructure
  else if atBuiltin tokens then verbatim builtin
  else if atPath tokens then rec.pathExpression allowsStructure
  else if atGroup .parenthesis tokens then rec.parenthesized
  else if atWord "break" tokens then rec.breakExpression allowsStructure
  else if atWord "continue" tokens then
    let head ← anyToken
    return plainExpression (head ++ (← optionalLifetime))
  else if atOneOf ["return", "yield"] tokens then
    let head ← anyToken
    return plainExpression (head ++ (← rec.carried true))
  else if atWord "become" tokens then
    verbatim do
      let _ ← anyToken
      rec.expression true
  else if atGroup .bracket tokens then rec.arrayExpression
  else if atWord "let" tokens then rec.letCondition allowsStructure
  else if atBlockLike tokens then rec.blockLike
  else if atOperator ".." tokens then
    let range ← properRangeOperator
    return .node .range (range ++ (← rec.upperBound range allowsStructure))
  else if atWord "_" tokens then return plainExpression (← anyToken)
  else misplaced "expected an expression"

/-- What the mark `&` makes of the operand behind it. -/
def reference (allowsStructure : Bool) : Parser Trees := do
  let sign ← operator "&"
  let tokens ← remaining
  let behind := tokens.drop 1
  if atWord "raw" tokens && (atWord "mut" behind || atWord "const" behind) then
    let raw ← anyToken
    let access ← anyToken
    return sign ++ raw ++ access ++ [← rec (.operand allowsStructure)]
  else
    let mutable ← optionalWord "mut"
    return sign ++ mutable ++ [← rec (.operand allowsStructure)]

/-- An expression up to the first binary operator. What is kept as it is written keeps its attributes too. -/
def operand (allowsStructure : Bool) : Parser Tree := do
  let start ← remaining
  let attributes ← rec.outerAttributes
  let tokens ← remaining
  if atOperator "&" tokens then
    return (plainExpression (← rec.reference allowsStructure)).withAttributes attributes
  else if ["*", "!", "-"].any (atOperator · tokens) then
    let sign ← anyToken
    let sign := match sign with
      | [.leaf (.mark c _)] => [.leaf (.mark c false)]
      | sign => sign
    return (plainExpression (sign ++ [← rec (.operand allowsStructure)])).withAttributes attributes
  else
    let whole ← rec.trailers (← rec.atom allowsStructure)
    if whole.kind == .range && !attributes.isEmpty then
      rejected "attributes are not allowed on range expressions starting with `..`"
    else if whole.kind == .verbatim then keptSince start
    else return whole.withAttributes attributes

/-- A step of `operation`: takes the operator in front and its right operand, if it binds tightly enough. -/
def operationStep (base : Precedence) (allowsStructure : Bool) (left : Tree) : Parser (Tree × Bool) := do
  let tokens ← remaining
  if left.expressionKind == .range then return (left, false)
  match binaryOperator? tokens with
  | some (text, precedence) =>
    if !precedence.atLeast base then return (left, false)
    else if precedence = .compare && left.expressionKind == .comparison then
      misplaced "comparison operators cannot be chained"
    else
      let sign ← operator text
      let right ← rec.rightOperand allowsStructure precedence
      let kind := if precedence = .compare then Kind.comparison else .operation
      return (.node kind (left :: sign ++ [right]), true)
  | none =>
    if Precedence.assign.atLeast base && atAssignment tokens then
      let sign ← operator "="
      return (.node .operation (left :: sign ++ [← rec.rightOperand allowsStructure .assign]), true)
    else if Precedence.range.atLeast base && atOperator ".." tokens then
      let range ← properRangeOperator
      return (.node .range (left :: range ++ (← rec.upperBound range allowsStructure)), true)
    else if Precedence.cast.atLeast base && atWord "as" tokens then
      let sign ← anyToken
      let type ← rec (.type false)
      match behindCast? (← remaining) with
      | some what => misplaced ("casts cannot be followed by " ++ what)
      | none => return (.node .operation (left :: sign ++ [type]), true)
    else return (left, false)

/-- What operators of at least the precedence `base` make of the operand `left`. -/
def operation (left : Tree) (base : Precedence) (allowsStructure : Bool) : Parser Tree :=
  iterate (rec.operationStep base allowsStructure) left

/-- An expression that ends where a statement or a match arm may end. -/
def earlyExpression : Parser Tree := do
  let attributes ← rec.outerAttributes
  let tokens ← remaining
  let first ← if atBlockLike tokens then rec.blockLike else rec (.operand true)
  let behind ← remaining
  if !isBlockLike first then rec (.operation (first.withAttributes attributes) .jump true)
  else if (atOperator "." behind && !atOperator ".." behind) || atOperator "?" behind then
    rec (.operation ((← rec.trailers first).withAttributes attributes) .jump true)
  else return first.withAttributes attributes

end Recur

end CommandBinding.Source
