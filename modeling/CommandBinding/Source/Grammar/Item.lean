import CommandBinding.Source.Grammar.Function

/-!
Items: functions, the definitions of types and values, modules, traits, implementations, imports and macro calls. An
item that only a later check would reject, such as a function without a body, is kept as it is written.
-/
namespace CommandBinding.Source

open CommandBinding.Source.Parser

/-- The tokens behind a word, if it stands in front. -/
def dropWord (word : String) (tokens : List Token) : List Token :=
  if atWord word tokens then tokens.drop 1 else tokens

def atSignature (tokens : List Token) : Bool :=
  let tokens := dropWord "unsafe" (dropWord "async" (dropWord "const" tokens))
  let tokens :=
    if atWord "extern" tokens then
      let behind := tokens.drop 1
      if atString behind then behind.drop 1 else behind
    else tokens
  atWord "fn" tokens

def atMacroPath (tokens : List Token) : Bool :=
  atName tokens || atOneOf ["self", "super", "crate"] tokens || atOperator "::" tokens

/-- A name, or `_`. -/
def nameOrBlank : Parser String := do
  let tokens ← remaining
  if atName tokens || atWord "_" tokens then anyWord else misplaced "expected identifier or `_`"

/-- A name behind `as`, if it stands in front. -/
def asName : Parser Trees := do
  if atWord "as" (← remaining) then
    let head ← anyToken
    let tokens ← remaining
    if atName tokens || atWord "_" tokens then return head ++ (← anyToken)
    else misplaced "expected identifier or underscore"
  else return []

/-- A macro call, in which a name may stand where `allowsName`. Where it is not braced, a semicolon ends it. -/
def macroItem (allowsName : Bool) : Parser Trees := do
  let path ← plainPath
  let bang ← operator "!"
  let tokens ← remaining
  let name ← if allowsName && (atWord "try" tokens || atName tokens) then anyToken else pure []
  let isBraced := atGroup .brace (← remaining)
  let arguments ← anyGroup
  return path ++ bang ++ name ++ arguments ++ (← if isBraced then pure [] else operator ";")

def macroDefinition : Parser Unit := do
  let _ ← word "macro"
  let _ ← name
  if atGroup .parenthesis (← remaining) then
    let _ ← anyGroup
  if atGroup .brace (← remaining) then
    let _ ← anyGroup
  else misplaced "expected curly braces"

def itemExpectation : String :=
  "expected item"

structure Definition where
  name : String
  trees : Trees
  /-- Whether it has all that belongs to it and no more; otherwise it is kept as it is written. -/
  isPlain : Bool

namespace Recur

variable (rec : Recur)

/-- A tree of imports; a path from the root is only allowed at its start. -/
def useTree (allowsRoot : Bool) : Parser Tree := do
  let tokens ← remaining
  if atName tokens || atOneOf ["self", "super", "crate", "try"] tokens then
    let head ← anyToken
    if atOperator "::" (← remaining) then
      let colons ← operator "::"
      return Tree.part (head ++ colons ++ [← rec (.useTree false)])
    else return Tree.part (head ++ (← asName))
  else if atOperator "*" tokens then return Tree.part (← operator "*")
  else if atGroup .brace tokens then
    return Tree.part (← group .brace (commaSeparated do
      let root ← if allowsRoot then optionalOperator "::" else pure []
      return root ++ [← rec (.useTree (allowsRoot && root.isEmpty))]))
  else misplaced "expected one of: identifier, `self`, `super`, `crate`, `try`, `*`, curly braces"

def unnamedField : Parser Trees := do
  let attributes ← rec.outerAttributes
  let visibility ← visibility
  return attributes ++ visibility ++ [← rec.anyType]

/-- The head of a field with a name, and whether `_` stands for the name. -/
def fieldHead : Parser (Trees × Bool) := do
  let attributes ← rec.outerAttributes
  let visibility ← visibility
  let isBlank := atWord "_" (← remaining)
  let name ← if isBlank then anyToken else nameLeaf
  return (attributes ++ visibility ++ name ++ (← operator ":"), isBlank)

/-- A field with a name. Where it has none, its type may be given by fields of its own, which are kept as they are
written. -/
def namedField : Parser Trees := do
  let (head, isBlank) ← rec.fieldHead
  let tokens ← remaining
  if isBlank && (atWord "struct" tokens || (atWord "union" tokens && atGroup .brace (tokens.drop 1))) then
    return head ++ [← verbatim do
      let _ ← anyToken
      rec .fields]
  else return head ++ [← rec.anyType]

def fields : Parser Tree := do
  return Tree.part (← group .brace (commaSeparated rec.namedField))

def unnamedFields : Parser Trees :=
  group .parenthesis (commaSeparated rec.unnamedField)

def structureBody (generics : Trees) : Parser Trees := do
  let (clause, hasClause) ← rec.whereClause
  let tokens ← remaining
  if !hasClause && atGroup .parenthesis tokens then
    let fields ← rec.unnamedFields
    let (clause, _) ← rec.whereClause
    return .reordered (generics ++ fields ++ clause) (generics ++ clause ++ fields) :: (← operator ";")
  else if atGroup .brace tokens then return generics ++ clause ++ [← rec.fields]
  else return generics ++ clause ++ (← operator ";")

def enumerationVariant : Parser Trees := do
  let attributes ← rec.outerAttributes
  let _ ← visibility
  let name ← nameLeaf
  let tokens ← remaining
  let fields ←
    if atGroup .brace tokens then pure [← rec.fields]
    else if atGroup .parenthesis tokens then rec.unnamedFields
    else pure []
  let discriminant ←
    if atOperator "=" (← remaining) then
      let equals ← operator "="
      pure (equals ++ [← rec.expression true])
    else pure []
  return attributes ++ name ++ fields ++ discriminant

/-- The definition of a type of the kind that `head` names; `body` reads what stands behind the generic parameters. -/
def typeItem (head : String) (body : Trees → Parser Trees) : Parser (String × Trees) := do
  let visibility ← visibility
  let head ← word head
  let name ← name
  let (generics, _) ← rec.generics
  return (name.text, visibility ++ head ++ Tree.word name.text :: (← body (GenericTree.list generics)))

/-- A structure, an enumeration or a union. -/
def dataItem (tokens : List Token) : Parser (String × Trees) :=
  if atWord "struct" tokens then rec.typeItem "struct" rec.structureBody
  else if atWord "enum" tokens then
    rec.typeItem "enum" fun generics => do
      let (clause, _) ← rec.whereClause
      return generics ++ clause ++ (← group .brace (commaSeparated rec.enumerationVariant))
  else
    rec.typeItem "union" fun generics => do
      let (clause, _) ← rec.whereClause
      return generics ++ clause ++ [← rec.fields]

/-- The value behind an equals sign, if there is one. -/
def optionalValue : Parser Trees := do
  if atOperator "=" (← remaining) then
    let equals ← operator "="
    return equals ++ [← rec.expression true]
  else return []

/-- A constant behind `const`, which has no generic parameters, and has a value if it `needsValue`. -/
def constant (needsValue : Bool) (visibility head : Trees) : Parser Definition := do
  let name ← nameOrBlank
  let (_, hasGenerics) ← rec.generics
  let colon ← operator ":"
  let type ← rec.anyType
  let value ← rec.optionalValue
  let (_, hasClause) ← rec.whereClause
  let semicolon ← operator ";"
  return {
    name
    trees := visibility ++ head ++ Tree.word name :: colon ++ type :: value ++ semicolon
    isPlain := !(needsValue && value.isEmpty) && !hasGenerics && !hasClause }

/-- A static value: its name, its trees, and whether it has a type and a value. -/
def staticValue : Parser Definition := do
  let visibility ← visibility
  let head ← word "static"
  let mutable ← optionalWord "mut"
  let name ← name
  let colon ← if atOperator "=" (← remaining) then pure [] else operator ":"
  let type ← if colon.isEmpty then pure [] else pure [← rec.anyType]
  let value ←
    if !colon.isEmpty && atOperator ";" (← remaining) then pure []
    else
      let equals ← operator "="
      pure (equals ++ [← rec.expression true])
  let semicolon ← operator ";"
  return {
    name := name.text
    trees := visibility ++ head ++ mutable ++ Tree.word name.text :: colon ++ type ++ value ++ semicolon
    isPlain := !colon.isEmpty && !value.isEmpty }

/-- A name for a type. In a trait or an implementation the clause of bounds may stand behind the type. -/
def typeDefinition (clauseFirst clauseLast needsType : Bool) : Parser Definition := do
  let visibility ← visibility
  let head ← word "type"
  let name ← name
  let generics := GenericTree.list (← rec.generics).1
  let colon ← optionalOperator ":"
  let ends := fun tokens => atWord "where" tokens || atOperator "=" tokens || atOperator ";" tokens
  let bounds ← if colon.isEmpty then pure [] else boundsUntil ends rec.plainBound
  let bounds := if bounds.isEmpty then [] else colon ++ bounds
  let (before, hasClause) ← if clauseFirst then rec.whereClause else pure ([], false)
  let type ←
    if atOperator "=" (← remaining) then
      let equals ← operator "="
      pure (equals ++ [← rec.anyType])
    else pure []
  let (behind, _) ← if clauseLast && !hasClause then rec.whereClause else pure ([], false)
  let semicolon ← operator ";"
  return {
    name := name.text
    trees := visibility ++ head ++ Tree.word name.text ::
      .reordered (generics ++ bounds ++ before ++ type ++ behind) (generics ++ before ++ behind ++ bounds ++ type) ::
        semicolon
    isPlain := colon.isEmpty && type.isEmpty != needsType }

/-- A function of a trait, which needs no body. -/
def traitFunction : Parser Trees := do
  let (signature, inside) ← rec.signature
  let head := Tree.written signature.tokens inside
  if atGroup .brace (← remaining) then
    let (attributes, statements) ← rec.blockInside
    return [head, .group .brace (attributes ++ [statements])]
  else return head :: (← operator ";")

/-- An item of a trait behind its attributes. What has a visibility or a default is kept as it is written. -/
def traitItem : Parser Tree := do
  let start ← remaining
  let attributes ← rec.outerAttributes
  let visibility ← visibility
  let defaultness ← optionalWord "default"
  let tokens ← remaining
  let isPlain := visibility.isEmpty && defaultness.isEmpty
  let (trees, isWhole) ←
    if atSignature tokens then pure (← rec.traitFunction, true)
    else if atWord "const" tokens then
      let head ← anyToken
      let definition ← rec.constant false [] head
      pure (definition.trees, definition.isPlain)
    else if atWord "type" tokens then
      pure ((← rec.typeDefinition false true true).trees, true)
    else if isPlain && atMacroPath tokens then pure (← macroItem false, true)
    else misplaced itemExpectation
  if isPlain && isWhole then return .node .item (attributes ++ trees) else keptSince start

/-- A function behind its visibility. Without a body it is kept as it is written. -/
def functionOrSignature (start : List Token) (attributes visibility defaultness : Trees) : Parser Tree := do
  let (signature, inside) ← rec.signature
  if atOperator ";" (← remaining) then
    let _ ← operator ";"
    keptSince start
  else
    let (item, inside) ← rec.restOfFunction attributes visibility defaultness signature inside
    return .function item inside

def implementationItem : Parser Tree := do
  let start ← remaining
  let attributes ← rec.outerAttributes
  let visibility ← visibility
  let defaultness ←
    if atWord "default" (← remaining) && !atOperator "!" ((← remaining).drop 1) then anyToken else pure []
  let tokens ← remaining
  if atSignature tokens then
    rec.functionOrSignature start attributes visibility defaultness
  else if atWord "const" tokens then
    let head ← anyToken
    let definition ← rec.constant true (visibility ++ defaultness) head
    if definition.isPlain then return .node .item (attributes ++ definition.trees) else keptSince start
  else if atWord "type" tokens then
    let definition ← rec.typeDefinition false true true
    if definition.isPlain then
      return .node .item (attributes ++ visibility ++ defaultness ++ definition.trees)
    else keptSince start
  else if visibility.isEmpty && defaultness.isEmpty && atMacroPath tokens then
    return .node .item (attributes ++ (← macroItem false))
  else misplaced itemExpectation

/-- The tokens of a signature without the word `safe`, if it stands where `unsafe` may stand. -/
def withoutSafe? (tokens : List Token) : Option (List Token) :=
  let isModifier := fun token => token = .word "const" || token = .word "async"
  let behind := tokens.dropWhile isModifier
  if atWord "safe" behind && !atWord "unsafe" (behind.drop 1) then some (tokens.takeWhile isModifier ++ behind.drop 1)
  else none

/-- A function that is defined elsewhere. With the word `safe` or a body it is kept as it is written. -/
def foreignFunction (start : List Token) (head : Trees) (isSafe : Bool) : Parser Tree := do
  let (signature, inside) ← rec.signature
  if atGroup .brace (← remaining) then
    let _ ← rec.blockInside
    keptSince start
  else
    let semicolon ← operator ";"
    if isSafe then keptSince start else return .node .item (head ++ .written signature.tokens inside :: semicolon)

/-- A value that is defined elsewhere. With a word on its safety or a value it is kept as it is written. -/
def foreignValue (start : List Token) (head : Trees) : Parser Tree := do
  let unsafety ← optionalWord "unsafe"
  let safety ← if unsafety.isEmpty then optionalWord "safe" else pure []
  let static ← word "static"
  let mutable ← optionalWord "mut"
  let name ← nameLeaf
  let colon ← operator ":"
  let type ← rec.anyType
  let value ← rec.optionalValue
  let semicolon ← operator ";"
  if unsafety.isEmpty && safety.isEmpty && value.isEmpty then
    return .node .item (head ++ static ++ mutable ++ name ++ colon ++ type :: semicolon)
  else keptSince start

/-- A function, a value, a type or a macro call that is defined elsewhere. -/
def foreignItem : Parser Tree := do
  let start ← remaining
  let attributes ← rec.outerAttributes
  let visibility ← visibility
  let head := attributes ++ visibility
  let tokens ← remaining
  let unsafely? := withoutSafe? tokens
  let behind := if atOneOf ["unsafe", "safe"] tokens then tokens.drop 1 else tokens
  if atSignature (unsafely?.getD tokens) then
    advance (unsafely?.getD tokens)
    rec.foreignFunction start head unsafely?.isSome
  else if atWord "static" behind then rec.foreignValue start head
  else if atWord "type" tokens then
    let definition ← rec.typeDefinition true true false
    if definition.isPlain then return .node .item (head ++ definition.trees) else keptSince start
  else if visibility.isEmpty && atMacroPath tokens then return .node .item (attributes ++ (← macroItem false))
  else misplaced itemExpectation

/-- Items of a kind in braces, behind the attributes of what holds them. -/
def bracedItems (item : Parser Tree) : Parser (Trees × Trees) :=
  within .brace do
    let attributes ← rec.innerAttributes
    return (attributes, ← toEnd do return [← item])

def foreignModule : Parser Trees := do
  let unsafety ← optionalWord "unsafe"
  let convention ← linkage
  let (attributes, items) ← rec.bracedItems rec.foreignItem
  return unsafety ++ convention ++ [.group .brace (attributes ++ items)]

/-- A module, whose items may stand elsewhere. -/
def module : Parser Trees := do
  let visibility ← visibility
  let unsafety ← optionalWord "unsafe"
  let head ← word "mod"
  let name ← if atWord "try" (← remaining) then anyToken else nameLeaf
  let front := visibility ++ unsafety ++ head ++ name
  if atOperator ";" (← remaining) then return front ++ (← operator ";")
  else
    let (attributes, items) ← rec.bracedItems (rec .item)
    return front ++ [.group .brace (attributes ++ items)]

/-- A trait behind its attributes, or another name for bounds, which nothing but a visibility may precede. -/
def traitDefinition (attributes : Trees) : Parser Tree := do
  let visibility ← visibility
  let unsafety ← optionalWord "unsafe"
  let auto ← optionalWord "auto"
  let head ← word "trait"
  let name ← name
  let generics := GenericTree.list (← rec.generics).1
  let front := visibility ++ unsafety ++ auto ++ head ++ [.word name.text]
  if unsafety.isEmpty && auto.isEmpty && atOperator "=" (← remaining) then
    let equals ← operator "="
    let ends := fun tokens => atWord "where" tokens || atOperator ";" tokens
    let bounds ← boundsUntil ends (rec.bound false false)
    let (clause, _) ← rec.whereClause
    return .node .item (attributes ++ front ++
      .reordered (generics ++ equals ++ bounds ++ clause) (generics ++ clause ++ bounds) :: (← operator ";"))
  else
    let colon ← optionalOperator ":"
    let ends := fun tokens => atWord "where" tokens || atGroup .brace tokens
    let bounds ← if colon.isEmpty then pure [] else boundsUntil ends rec.plainBound
    let bounds := if bounds.isEmpty then [] else colon ++ bounds
    let (clause, _) ← rec.whereClause
    let (inner, items) ← rec.bracedItems rec.traitItem
    let parsed := Attribute.ofTrees (attributes ++ inner)
    return .definition name.text parsed (attributes ++ front ++
      [.reordered (generics ++ bounds ++ clause ++ [.group .brace (inner ++ items)])
        (inner ++ generics ++ clause ++ bounds ++ items)])

/-- An implementation behind its attributes. What only a later check would reject is kept as it is written. -/
def implementation (start : List Token) (attributes : Trees) : Parser Tree := do
  let visibility ← visibility
  let defaultness ← optionalWord "default"
  let unsafety ← optionalWord "unsafe"
  let head ← word "impl"
  let (generics, _) ← if atGenericParameters (← remaining) then rec.generics else pure ([], false)
  let tokens ← remaining
  let isConstant := atWord "const" tokens || (atOperator "?" tokens && atWord "const" (tokens.drop 1))
  if isConstant then
    let _ ← optionalOperator "?"
    let _ ← word "const"
  let tokens ← remaining
  let polarity ← if atOperator "!" tokens && !atGroup .brace (tokens.drop 1) then operator "!" else pure []
  let first ← rec.anyType
  let isTraitFor := atWord "for" (← remaining)
  if !isTraitFor && !polarity.isEmpty then rejected "inherent impls cannot be negative"
  let subject ←
    if isTraitFor then
      let between ← anyToken
      pure (between ++ [← rec.anyType])
    else pure []
  let (clause, _) ← rec.whereClause
  let (inner, items) ← rec.bracedItems rec.implementationItem
  if !visibility.isEmpty || isConstant || (isTraitFor && first.kind != .path) then keptSince start
  else
    let generics := GenericTree.list generics
    let types := polarity ++ first :: subject
    return .node .item (attributes ++ defaultness ++ unsafety ++ head ++
      [.reordered (generics ++ types ++ clause ++ [.group .brace (inner ++ items)])
        (inner ++ generics ++ clause ++ types ++ items)])

def useItem : Parser Trees := do
  let visibility ← visibility
  let head ← word "use"
  let root ← optionalOperator "::"
  let tree ← rec (.useTree root.isEmpty)
  return visibility ++ head ++ root ++ tree :: (← operator ";")

def libraryItem : Parser Trees := do
  let visibility ← visibility
  let head ← word "extern"
  let kind ← word "crate"
  let name ← if atWord "self" (← remaining) then anyToken else nameLeaf
  return visibility ++ head ++ kind ++ name ++ (← asName) ++ (← operator ";")

/-- A definition as a tree, or the tokens as they are written. -/
def definitionOr (start : List Token) (attributes : Trees) (definition : Definition) : Parser Tree := do
  if definition.isPlain then
    return .definition definition.name (Attribute.ofTrees attributes) (attributes ++ definition.trees)
  else keptSince start

/-- An item behind its attributes; `ahead` are the tokens behind its visibility. -/
def itemBehind (start : List Token) (attributes : Trees) (hasVisibility : Bool) (ahead : List Token) :
    Parser Tree := do
  let behind := ahead.drop 1
  if atSignature ahead then rec.functionOrSignature start attributes (← visibility) []
  else if atWord "extern" ahead then
    if atWord "crate" behind then return .node .item (attributes ++ (← libraryItem))
    else
      let visibility ← visibility
      if visibility.isEmpty then return .node .item (attributes ++ (← rec.foreignModule))
      else misplaced itemExpectation
  else if atWord "use" ahead then return .node .item (attributes ++ (← rec.useItem))
  else if atWord "static" ahead then definitionOr start attributes (← rec.staticValue)
  else if atWord "const" ahead then
    let visibility ← visibility
    let head ← word "const"
    definitionOr start attributes (← rec.constant true visibility head)
  else if atWord "unsafe" ahead then
    if atWord "trait" behind || (atWord "auto" behind && atWord "trait" (behind.drop 1)) then
      rec.traitDefinition attributes
    else if atWord "impl" behind then rec.implementation start attributes
    else if atWord "extern" behind && !hasVisibility then
      return .node .item (attributes ++ (← rec.foreignModule))
    else if atWord "mod" behind then return .node .item (attributes ++ (← rec.module))
    else misplaced itemExpectation
  else if atWord "mod" ahead then return .node .item (attributes ++ (← rec.module))
  else if atWord "type" ahead then
    definitionOr start attributes (← rec.typeDefinition true false true)
  else if atOneOf ["struct", "enum"] ahead || (atWord "union" ahead && atName behind) then
    let (name, trees) ← rec.dataItem ahead
    return .definition name (Attribute.ofTrees attributes) (attributes ++ trees)
  else if atWord "trait" ahead || (atWord "auto" ahead && atWord "trait" behind) then
    rec.traitDefinition attributes
  else if atWord "impl" ahead || (atWord "default" ahead && !atOperator "!" behind) then
    rec.implementation start attributes
  else if atWord "macro" ahead then
    let _ ← visibility
    macroDefinition
    keptSince start
  else if !hasVisibility && atMacroPath ahead then return .node .item (attributes ++ (← macroItem true))
  else misplaced itemExpectation

def item : Parser Tree := do
  let start ← remaining
  let attributes ← rec.outerAttributes
  let (visibility, ahead) ← peekVisibility
  rec.itemBehind start attributes (!visibility.isEmpty) ahead

end Recur

end CommandBinding.Source
