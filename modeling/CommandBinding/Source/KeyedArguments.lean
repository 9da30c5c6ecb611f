import CommandBinding.Source.Grammar

/-!
Keyed arguments, as attributes take them: `key`, `key = value`, and so on, with commas between. What may stand
behind a key is up to the reader of that key.
-/
namespace CommandBinding.Source

open CommandBinding.Source.Parser

/-- The key of an argument. Reserved words may stand in it. -/
def argumentKey : Parser (List Token) := do
  let root ← optionalOperator "::"
  let tokens ← remaining
  if !atAnyWord tokens then
    if tokens.isEmpty then misplaced "expected nested attribute"
    else if atLiteral tokens then misplaced "unexpected literal in nested attribute, expected ident"
    else misplaced "unexpected token in nested attribute, expected ident"
  else
    let head ← anyToken
    let more ← collectWhile (atOperator "::") do
      let colons ← operator "::"
      return colons ++ [Tree.word (← anyWord)]
    return Tree.tokensOf (root ++ head ++ more)

/-- Reads keyed arguments. `entry` reads what stands behind a key and changes the value accordingly. -/
def keyedArguments {α : Type} (entry : List Token → α → Parser α) (value : α) : Parser α := do
  if (← remaining).isEmpty then return value
  iterate (fun value => do
    let key ← argumentKey
    let value ← entry key value
    if (← remaining).isEmpty then return (value, false)
    let _ ← operator ","
    return (value, !(← remaining).isEmpty)) value

end CommandBinding.Source
