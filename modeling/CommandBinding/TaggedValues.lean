import CommandBinding.Code
import CommandBinding.Source.Grammar

/-!
Tagged values: a list of expressions becomes the list of the texts `name: value` of those that are no more than a
name. All others are dropped.
-/
namespace CommandBinding.TaggedValues

open Source CommandBinding.Source.Parser

/-- The word that an expression is, if it is no more than one. -/
def plainWord? : Tree → Option String
  | .node .path trees =>
    match Tree.tokensOf trees with
    | [.word word] => some word
    | _ => none
  | _ => none

def entryCode (word : String) : List Token :=
  code ":: std :: format !" ++
    inParentheses (stringCode (unraw word ++ ": \x7b:?\x7d") ++ code "," ++ [.word word])

def tokens (names : List String) : List Token :=
  inBraces (code "let __tagged : :: std :: vec :: Vec < :: std :: string :: String > = :: std :: vec !" ++
    inBrackets (withCommas (names.map entryCode)) ++ code "; __tagged")

def wordsOf (arguments : List Token) : Except ParseError (List String) := do
  let trees ← parse (fun rec => commaSeparated do return [← rec.expression true]) arguments
  return trees.filterMap plainWord?

end CommandBinding.TaggedValues
