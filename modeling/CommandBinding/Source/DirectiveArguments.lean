import CommandBinding.Binding
import CommandBinding.Source.KeyedArguments

/-!
Directives as they stand in the source: an attribute whose path ends in the name of a directive, with the arguments
`shadow_groups = […]`, `associated` and `runtime = "path"`.
-/
namespace CommandBinding.Source

open CommandBinding.Source.Parser

def bareExpression : Tree → Tree
  | .node .attributed children => children.getLast?.getD (.node .expression [])
  | tree => tree

/-- An element of the shadow groups: the value of a string literal, or the text of any other expression. -/
def groupArgument (expression : Tree) : GroupArgument :=
  let other := GroupArgument.expression (CodeText.tight (Tree.textOf [expression]))
  match bareExpression expression with
  | .node .literal [.leaf (.literal text)] => ((Quoted.value? text).map GroupArgument.literal).getD other
  | _ => other

/-- The shadow groups that an expression is: the elements of an array, or the expression itself. -/
def groupArguments (expression : Tree) : List GroupArgument :=
  match bareExpression expression with
  | .node .array [.group _ elements] => (elements.filter (· matches .node _ _)).map groupArgument
  | _ => [groupArgument expression]

def directiveEntry (rec : Recur) (key : List Token) (directive : Directive) : Parser Directive := do
  if key == [.word "shadow_groups"] then
    let _ ← operator "="
    return { directive with shadowGroups := groupArguments (← rec.expression true) }
  else if key == [.word "associated"] then return { directive with associated := true }
  else if key == [.word "runtime"] then
    let _ ← operator "="
    return { directive with runtime? := some (← stringValue) }
  else rejected "expected `shadow_groups`, `associated` or `runtime`"

/-- The directive of a kind with the arguments that the tokens are. -/
def directiveOfArguments (kind : DirectiveKind) (arguments : List Token) : Except ParseError Directive :=
  parse (fun rec => keyedArguments (directiveEntry rec) { kind }) arguments

def directiveKind? (a : Attribute) : Option DirectiveKind := do
  DirectiveKind.ofAttributeName? (← a.lastWord?)

def directiveOfAttribute (kind : DirectiveKind) (a : Attribute) : Except ParseError Directive :=
  match a.content with
  | .nothing => .ok { kind }
  | .arguments _ tokens => directiveOfArguments kind tokens
  | .value _ => .error (.rejected "expected a parenthesized argument list")

end CommandBinding.Source
