import CommandBinding.Source.FunctionItem

/-!
Parse trees of source text. The leaves of a tree are its tokens in the order in which they are written, so
`Tree.tokens` is the text of a tree, and the nodes in between say only what later rules ask for.
-/
namespace CommandBinding.Source

inductive Kind where
  /-- A part of the node above it, at a place of its own. -/
  | part
  /-- An attribute, from its number sign to its closing bracket. -/
  | attribute
  /-- An expression behind its attributes. -/
  | attributed
  /-- A path without a self type, as an expression or as a type. -/
  | path
  /-- A segment of a type path: its name, and the generic arguments if there are any. -/
  | segment
  /-- The generic arguments of a segment, in the order of the source. -/
  | arguments
  /-- A generic argument that is a type. -/
  | typeArgument
  /-- Bounds that stand as a type without a keyword; `isSingle` if there is one of them and no sign behind it. -/
  | bounds (isSingle : Bool)
  /-- Any other type. -/
  | type
  | literal
  | array
  /-- A range, as an expression or as a pattern with both bounds. -/
  | range
  /-- An operand, a sign that joins it to what stands behind it, and that. -/
  | operation
  /-- An operation that compares, and so cannot be compared again. -/
  | comparison
  | macroCall (isBraced : Bool)
  /-- An expression that ends a statement without a semicolon. -/
  | blockLike
  /-- Any other expression. -/
  | expression
  /-- A pattern that binds a name. -/
  | binding
  /-- A range pattern that lacks a bound. -/
  | openRange
  /-- Any other pattern. -/
  | pattern
  /-- Any other item, or a statement. -/
  | item
  /-- Tokens that are kept as they are written. -/
  | verbatim
deriving DecidableEq, Repr, Inhabited

inductive Tree where
  | leaf (token : Token)
  | group (delimiter : Delimiter) (inner : List Tree)
  | node (kind : Kind) (children : List Tree)
  /-- A function with a body, but not the default of a trait; `inside` are the trees that its tokens make up. -/
  | function (item : FunctionItem) (inside : List Tree)
  /-- Tokens that are not written in the order of the trees `inside`. -/
  | written (tokens : List Token) (inside : List Tree)
  /-- A definition of that name that is no function. -/
  | definition (name : String) (attributes : List Attribute) (children : List Tree)
deriving Repr, Inhabited

namespace Tree

mutual

def tokens : Tree → List Token
  | leaf token => [token]
  | group delimiter inner => [.group delimiter (tokensOf inner)]
  | node _ children => tokensOf children
  | function item _ => item.tokens
  | written tokens _ => tokens
  | definition _ _ children => tokensOf children

def tokensOf : List Tree → List Token
  | [] => []
  | tree :: rest => tree.tokens ++ tokensOf rest

end

def textOf (trees : List Tree) : String :=
  Token.textOf (tokensOf trees)

/-- The kind of a node; leaves and groups are only parts of one. -/
def kind : Tree → Kind
  | node kind _ => kind
  | _ => .part

def children : Tree → List Tree
  | node _ children => children
  | group _ inner => inner
  | function _ inside => inside
  | written _ inside => inside
  | definition _ _ children => children
  | leaf _ => []

/-- The kind of an expression, whatever attributes stand in front of it. -/
def expressionKind : Tree → Kind
  | node .attributed children => (children.getLast?.map kind).getD .expression
  | tree => tree.kind

def leaves (tokens : List Token) : List Tree :=
  tokens.map leaf

/-- The leaves of an operator such as `::`. -/
def operator (text : String) : List Tree :=
  leaves (Token.operator text)

def word (text : String) : Tree :=
  leaf (.word text)

/-- Trees in a row that later rules take in the order `inOrder`. -/
def reordered (asWritten inOrder : List Tree) : Tree :=
  written (tokensOf asWritten) inOrder

def part (trees : List Tree) : Tree :=
  node .part trees

/-- The operand that an expression begins with. -/
def firstOperand : Tree → Tree
  | node .operation (left :: _) | node .comparison (left :: _) => firstOperand left
  | tree => tree

/-- An expression or a pattern behind attributes. They belong to its first operand: a range is written in parentheses
behind them, and tokens that are kept as they are written take none. -/
def withAttributes (tree : Tree) (attributes : List Tree) : Tree :=
  match attributes, tree with
  | [], tree => tree
  | attributes, node .attributed children => node .attributed (attributes ++ children)
  | attributes, node .range children => node .attributed (attributes ++ [node .range [group .parenthesis children]])
  | attributes, node .openRange children =>
    node .attributed (attributes ++ [node .openRange [group .parenthesis children]])
  | attributes, tree =>
    if tree.firstOperand.kind = .verbatim then tree else node .attributed (attributes ++ [tree])

end Tree

end CommandBinding.Source
