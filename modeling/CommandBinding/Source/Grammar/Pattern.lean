import CommandBinding.Source.Grammar.Type

/-!
Patterns. `Recur.pattern` reads one alternative; parameters, lists and match arms read several, which `|` joins. A
range that three dots would span is written with the operator `..=`.
-/
namespace CommandBinding.Source

open CommandBinding.Source.Parser

def rangeOperator : Parser Trees := do
  let tokens ← remaining
  if atOperator "..=" tokens then operator "..="
  else if atOperator "..." tokens then
    let _ ← operator "..."
    return Tree.operator "..="
  else operator ".."

/-- Reads a range operator, but not three dots. -/
def properRangeOperator : Parser Trees := do
  let tokens ← remaining
  if atOperator "..=" tokens then operator "..="
  else if atOperator ".." tokens && !atOperator "..." tokens then operator ".."
  else misplaced "expected `..=`"

/-- Whether these are the leaves of a range that has an upper bound. -/
def isClosedRange (range : Trees) : Bool :=
  range.length == 3

/-- Whether `|` joins another alternative here. -/
def atAlternative (tokens : List Token) : Bool :=
  atOperator "|" tokens && !atOperator "||" tokens && !atOperator "|=" tokens

/-- The number of a field: an integer of 32 bits without a suffix. -/
def fieldNumber? (text : String) : Option Nat :=
  (Number.natural? text).filter (· < Nat.pow 2 32)

def member : Parser Trees := do
  match ← remaining with
  | .word word :: rest =>
    if isName word then
      advance rest
      return [.word word]
    else misplaced "expected identifier or integer"
  | .literal text :: rest =>
    if isInteger text then
      advance rest
      match fieldNumber? text with
      | some n => return [.leaf (.literal (toString n))]
      | none => rejected "expected unsuffixed integer"
    else misplaced "expected identifier or integer"
  | _ => misplaced "expected identifier or integer"

def isNamedMember : Trees → Bool
  | [.leaf (.word _)] => true
  | _ => false

namespace Recur

variable (rec : Recur)

/-- Alternatives behind the first, which `lead` may precede. -/
def alternatives (lead : Trees) : Parser Tree := do
  let first ← rec .pattern
  if lead.isEmpty && !atAlternative (← remaining) then return first
  let more ← collectWhile atAlternative do
    let bar ← operator "|"
    return bar ++ [← rec .pattern]
  return .node .pattern (lead ++ first :: more)

/-- Alternatives, in front of which a bar may stand. -/
def anyPattern : Parser Tree := do
  rec.alternatives (← optionalOperator "|")

def constantBlock : Parser Trees := do
  let head ← word "const"
  return head ++ (← rec.blockBehind [])

/-- A bound of a range pattern, if one stands here. -/
def rangeBound : Parser (Option Trees) := do
  let tokens ← remaining
  let isColon := atOperator ":" tokens && !atOperator "::" tokens
  if tokens.isEmpty || isColon || atWord "if" tokens || ["|", "=", ",", ";"].any (atOperator · tokens) then
    return none
  else if atLiteral tokens then return some [.node .literal (← literal)]
  else if atName tokens || atOperator "::" tokens || atOperator "<" tokens || atPathWord tokens then
    return some (← rec.anyPath true).2
  else if atWord "const" tokens then return some (← rec.constantBlock)
  else misplaced ("expected one of: literal, identifier, `::`, `<`, `self`, `Self`, `super`, `crate`, `const`")

def rangePattern (lower : Trees) : Parser Tree := do
  let range ← rangeOperator
  match ← rec.rangeBound with
  | some upper => return .node (if lower.isEmpty then .openRange else .range) (lower ++ range ++ upper)
  | none =>
    if isClosedRange range then misplaced "expected range upper bound"
    else return .node .openRange (lower ++ range)

/-- A range pattern without a lower bound, or the pattern `..`. -/
def upToPattern : Parser Tree := do
  let range ← properRangeOperator
  match ← rec.rangeBound with
  | some upper => return .node .openRange (range ++ upper)
  | none => if isClosedRange range then misplaced "expected range upper bound" else return .node .pattern range

def fieldPattern : Parser Trees := do
  let boxed ← optionalWord "box"
  let reference ← optionalWord "ref"
  let mutable ← optionalWord "mut"
  let isPlain := boxed.isEmpty && reference.isEmpty && mutable.isEmpty
  let member ← if isPlain then member else nameLeaf
  if (isPlain && atOperator ":" (← remaining)) || !isNamedMember member then
    let colon ← operator ":"
    return member ++ colon ++ [← rec.anyPattern]
  else return boxed ++ reference ++ [.node .binding (mutable ++ member)]

/-- The fields of a structure pattern. Two dots may end them. -/
def fieldPatterns : Parser Trees :=
  collect do
    if (← remaining).isEmpty then return ([], false)
    let attributes ← rec.outerAttributes
    if atOperator ".." (← remaining) then return (attributes ++ (← operator ".."), false)
    let field ← rec.fieldPattern
    if (← remaining).isEmpty then return (attributes ++ field, false)
    return (attributes ++ field ++ (← operator ","), true)

def patternList : Parser Trees :=
  commaSeparated do return [← rec.anyPattern]

/-- A pattern that begins with a path: a structure, a call, a range, a macro call, or the path. -/
def pathPattern : Parser Tree := do
  let (hasSelf, path) ← rec.anyPath true
  let tokens ← remaining
  if !hasSelf && atOperator "!" tokens && !atOperator "!=" tokens && isPlainPath path then
    let bang ← operator "!"
    return .node .pattern (path ++ bang ++ (← anyGroup))
  else if atGroup .brace tokens then return .node .pattern (path ++ (← group .brace rec.fieldPatterns))
  else if atGroup .parenthesis tokens then return .node .pattern (path ++ (← group .parenthesis rec.patternList))
  else if atOperator ".." tokens then rec.rangePattern path
  else return .node .pattern path

def literalPattern : Parser Tree := do
  match ← rec.rangeBound with
  | some bound => if atOperator ".." (← remaining) then rec.rangePattern bound else return .node .pattern bound
  | none => misplaced "expected literal"

/-- A name, and the pattern that its value has to match, if one is given. -/
def bindingPattern : Parser Tree := do
  let reference ← optionalWord "ref"
  let mutable ← optionalWord "mut"
  let name ← if atWord "self" (← remaining) then anyToken else nameLeaf
  let inner ←
    if atOperator "@" (← remaining) then
      let sign ← operator "@"
      pure (sign ++ [← rec .pattern])
    else pure []
  return .node .binding (reference ++ mutable ++ name ++ inner)

/-- A slice pattern. A range without a bound is not allowed in it. -/
def slicePattern : Parser Tree := do
  return .node .pattern (← group .bracket (toEnd do
    let item ← rec.anyPattern
    if item.kind = .openRange then
      rejected "range pattern is not allowed unparenthesized inside slice pattern"
    else if (← remaining).isEmpty then return [item] else return item :: (← operator ",")))

def patternExpectation : String :=
  "expected one of: identifier, `::`, `<`, `_`, literal, `const`, `ref`, `mut`, identifier, `&`, " ++
    "parentheses, square brackets, `..`, `const`"

def pattern : Parser Tree := do
  let tokens ← remaining
  let behind := tokens.drop 1
  let isHead := atName tokens && (atOperator "::" behind || atOperator "!" behind || atOperator ".." behind ||
    atGroup .brace behind || atGroup .parenthesis behind)
  if isHead || (atWord "self" tokens && atOperator "::" behind) || atOperator "::" tokens ||
      atOperator "<" tokens || atOneOf ["Self", "super", "crate"] tokens then
    rec.pathPattern
  else if atWord "_" tokens then return .node .pattern (← anyToken)
  else if atWord "box" tokens then
    verbatim do
      let _ ← anyToken
      rec .pattern
  else if atOperator "-" tokens || atLiteral tokens || atWord "const" tokens then rec.literalPattern
  else if atOneOf ["ref", "mut", "self"] tokens || atName tokens then rec.bindingPattern
  else if atOperator "&" tokens then
    let sign ← operator "&"
    let mutable ← optionalWord "mut"
    return .node .pattern (sign ++ mutable ++ [← rec .pattern])
  else if atGroup .parenthesis tokens then return .node .pattern (← group .parenthesis rec.patternList)
  else if atGroup .bracket tokens then rec.slicePattern
  else if atOperator ".." tokens && !atOperator "..." tokens then rec.upToPattern
  else misplaced patternExpectation

end Recur

end CommandBinding.Source
