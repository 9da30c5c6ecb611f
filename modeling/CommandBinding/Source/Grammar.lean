import CommandBinding.Source.Grammar.Statement

/-!
The rules of the grammar tied together. A parse goes down one level wherever a part of the grammar contains another,
and every few levels it takes a token, so a bound that is greater than the size of any text is never reached.
-/
namespace CommandBinding.Source

open CommandBinding.Source.Parser

/-- The rule of a part, in which `rec` reads the parts it contains. -/
def rule (rec : Recur) : Nonterminal → Parser Tree
  | .type allowsPlus => rec.type allowsPlus
  | .genericArgument => rec.genericArgument
  | .binder => rec.binder
  | .pattern => rec.pattern
  | .operand allowsStructure => rec.operand allowsStructure
  | .operation left base allowsStructure => rec.operation left base allowsStructure
  | .earlyExpression => rec.earlyExpression
  | .statements => rec.statements
  | .item => rec.item
  | .fields => rec.fields
  | .useTree allowsRoot => rec.useTree allowsRoot

/-- The parser of all parts, which goes down at most `depth` levels. -/
def grammar : Nat → Recur
  | 0, _ => throw .tooDeep
  | depth + 1, part => rule (grammar depth) part

/-- More levels than the tokens of any text that fits into memory need. -/
def maxDepth : Nat := Nat.pow 2 62

def sourceGrammar : Recur :=
  grammar maxDepth

/-- Parses all of a token list by the rule that `start` is. -/
def parse {α : Type} (start : Recur → Parser α) (tokens : List Token) : Except ParseError α :=
  parseAll (start sourceGrammar) tokens

/-- Parses all of a text by the rule that `start` is. -/
def parseSource {α : Type} (start : Recur → Parser α) (text : String) : Except ParseError α :=
  match Token.ofText? text with
  | some tokens => parse start tokens
  | none => throw .noTokens

def parseType (text : String) : Except ParseError Tree :=
  parseSource (·.anyType) text

def parseExpression (text : String) : Except ParseError Tree :=
  parseSource (·.expression true) text

def parsePath (text : String) : Except ParseError Trees :=
  parseSource (·.path false) text

def parseFunction (tokens : List Token) : Except ParseError FunctionItem := do
  return (← parse (·.functionItem) tokens).1

end CommandBinding.Source
