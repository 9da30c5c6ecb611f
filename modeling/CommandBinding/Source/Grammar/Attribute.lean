import CommandBinding.Source.Grammar.Nonterminal

/-!
The grammar of attributes. An attribute is kept as a tree, in which items may be nested; `Attribute.ofTree?` takes it
apart.
-/
namespace CommandBinding.Source

open CommandBinding.Source.Parser

namespace Attribute

def contentOf : Trees → AttributeContent
  | [] => .nothing
  | [.leaf (.group delimiter tokens)] => .arguments delimiter tokens
  | _ :: value => .value (Tree.tokensOf value)

def ofTree? : Tree → Option Attribute
  | .node .attribute children =>
    match children.getLast? with
    | some (.group _ [.node _ path, .node _ content]) =>
      some ⟨children.length == 3, Tree.tokensOf path, contentOf content⟩
    | _ => none
  | _ => none

def ofTrees (trees : Trees) : List Attribute :=
  trees.filterMap ofTree?

end Attribute

/-- A path of words, as attributes, macros and visibilities have. -/
def plainPath : Parser Trees := do
  let root ← optionalOperator "::"
  let words ← collect do
    let tokens ← remaining
    if atName tokens || atPathWord tokens then
      let segment ← anyToken
      let colons ← optionalOperator "::"
      return ([(segment, colons)], !colons.isEmpty)
    else return ([], false)
  match words.getLast? with
  | none =>
    let _ ← name
    return []
  | some (_, []) => return root ++ words.flatMap fun (segment, colons) => segment ++ colons
  | some _ => misplaced "expected path segment after `::`"

namespace Recur

variable (rec : Recur)

def attributeContent : Parser Trees := do
  let tokens ← remaining
  if atAnyGroup tokens then anyGroup
  else if atOperator "=" tokens then
    let equals ← operator "="
    let tokens ← remaining
    if atOperator "#" tokens && atGroup .bracket (tokens.drop 1) then
      misplaced "unexpected attribute inside of attribute"
    else return equals ++ [← rec.expression true]
  else return []

def attributeInside : Parser Trees := do
  let path ← if atWord "unsafe" (← remaining) then anyToken else plainPath
  return [Tree.part path, Tree.part (← rec.attributeContent)]

def outerAttribute : Parser Trees := do
  let sign ← operator "#"
  return [.node .attribute (sign ++ (← group .bracket rec.attributeInside))]

def outerAttributes : Parser Trees :=
  collectWhile (atOperator "#") rec.outerAttribute

def innerAttributes : Parser Trees :=
  collectWhile (fun tokens => atOperator "#" tokens && atOperator "!" (tokens.drop 1)) do
    let sign ← operator "#"
    let bang ← operator "!"
    return [.node .attribute (sign ++ bang ++ (← group .bracket rec.attributeInside))]

end Recur

end CommandBinding.Source
