import CommandBinding.Source.Grammar.Item

/-!
Statements. Only an expression that ends in a block of its own ends a statement without a semicolon; the last
expression of a block needs none.
-/
namespace CommandBinding.Source

open CommandBinding.Source.Parser

/-- Whether an item stands in front, and not an expression. -/
def atItem (tokens : List Token) : Bool :=
  let second := tokens.drop 1
  let third := tokens.drop 2
  atOneOf ["pub", "extern", "use", "fn", "mod", "type", "struct", "enum", "trait", "impl", "macro"] tokens ||
    (atWord "crate" tokens && !atOperator "::" second) ||
    (atWord "static" tokens && (atWord "mut" second || (atName second &&
      !(atWord "async" second && (atWord "move" third || atOperator "|" third))))) ||
    (atWord "const" tokens && !(atGroup .brace second || atWord "static" second ||
      (atWord "async" second && !atOneOf ["unsafe", "extern", "fn"] third) || atWord "move" second ||
      atOperator "|" second)) ||
    (atWord "unsafe" tokens && !atGroup .brace second) ||
    (atWord "async" tokens && atOneOf ["unsafe", "extern", "fn"] second) ||
    (atWord "union" tokens && atName second) ||
    (atWord "auto" tokens && atWord "trait" second) ||
    (atWord "default" tokens && atOneOf ["unsafe", "impl"] second)

inductive MacroStart where
  /-- No macro call, or one that goes on as an expression. -/
  | none
  /-- The call of a macro that defines a name. -/
  | item
  /-- A call with braces, which is a statement. -/
  | braced

def macroStart : Parser MacroStart := do
  let r ← get
  let path? ← attempt plainPath
  let tokens ← remaining
  set r
  let second := tokens.drop 1
  let third := tokens.drop 2
  if path?.isNone || !atOperator "!" tokens then return .none
  else if atName second || atWord "try" second then return .item
  else if atGroup .brace second && !((atOperator "." third && !atOperator ".." third) || atOperator "?" third) then
    return .braced
  else return .none

def needsSemicolon (expression : Tree) : Bool :=
  match expression.expressionKind with
  | .macroCall isBraced => !isBraced
  | kind => kind != .blockLike

namespace Recur

variable (rec : Recur)

/-- A binding behind `let`. -/
def letStatement : Parser Trees := do
  let head ← word "let"
  let pattern ← rec .pattern
  let type ←
    if atOperator ":" (← remaining) then
      let colon ← operator ":"
      pure (colon ++ [← rec.anyType])
    else pure []
  let value ←
    if atOperator "=" (← remaining) then
      let equals ← operator "="
      let value ← rec.expression true
      let otherwise ←
        if !endsInBraces value && atWord "else" (← remaining) then
          let head ← anyToken
          pure (head ++ (← rec.plainBlock))
        else pure []
      pure (equals ++ value :: otherwise)
    else pure []
  return head ++ pattern :: type ++ value ++ (← operator ";")

def macroStatement : Parser Trees := do
  let path ← plainPath
  let bang ← operator "!"
  let arguments ← anyGroup
  return path ++ bang ++ arguments ++ (← optionalOperator ";")

/-- A statement, and whether another may only stand behind a semicolon. -/
def statement : Parser (Tree × Bool) := do
  let start ← get
  let attributes ← rec.outerAttributes
  let tokens ← remaining
  let found ← macroStart
  match found with
  | .braced => return (.node .item (attributes ++ (← macroStatement)), false)
  | _ =>
    if atWord "let" tokens then return (.node .item (attributes ++ (← rec.letStatement)), false)
    else if atItem tokens || found matches .item then
      set start
      return (← rec .item, false)
    else
      let expression := (← rec .earlyExpression).withAttributes attributes
      let semicolon ← optionalOperator ";"
      if semicolon.isEmpty then return (expression, needsSemicolon expression)
      else return (.node .item (expression :: semicolon), false)

def statements : Parser Tree := do
  return .node .part (← collect do
    let empty ← collectWhile (atOperator ";") (operator ";")
    if (← remaining).isEmpty then return (empty, false)
    let (statement, needsMark) ← rec.statement
    if (← remaining).isEmpty then return (empty ++ [statement], false)
    else if needsMark then misplaced "unexpected token, expected `;`"
    else return (empty ++ [statement], true))

end Recur

end CommandBinding.Source
