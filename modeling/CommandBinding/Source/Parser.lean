import CommandBinding.Source.Name
import CommandBinding.Source.Tree

/-!
Parsers on token lists. A parser reads from the front of the tokens of one bracket; what a bracket holds behind the
part that was read is reported only when all else has succeeded. `parseAll` demands that nothing is left.
-/
namespace CommandBinding.Source

inductive ParseError where
  /-- Something else had to stand at a place; at the end of a bracket nothing stands there. -/
  | misplaced (text : String) (isAtEnd : Bool)
  /-- A construct that is not allowed where it stands, or a missing operator. -/
  | rejected (text : String)
  /-- Tokens are left over in a bracket of that kind, or outside all brackets. -/
  | leftover (enclosing? : Option Delimiter)
  /-- The text is no list of tokens. -/
  | noTokens
  /-- The parse went deeper than its bound. -/
  | tooDeep
deriving DecidableEq, Repr

namespace ParseError

def message : ParseError → String
  | misplaced text isAtEnd => if isAtEnd then "unexpected end of input, " ++ text else text
  | rejected text => text
  | leftover none => "unexpected token"
  | leftover (some delimiter) => "unexpected token, expected `" ++ delimiter.closingMark ++ "`"
  | noTokens => "cannot parse string into token stream"
  | tooDeep => "nested too deeply"

end ParseError

/-- What is left to read in a bracket, and the first bracket so far that was not read to its end. -/
structure Reading where
  tokens : List Token
  leftover? : Option Delimiter := none
deriving Repr

abbrev Parser (α : Type) := StateT Reading (Except ParseError) α

abbrev Trees := List Tree

/-! Tests on the tokens in front -/

/-- The tokens behind an operator. All but its last character must be joint. -/
def behindOperator? : List Char → List Token → Option (List Token)
  | [], tokens => some tokens
  | [c], .mark c' _ :: rest => if c = c' then some rest else none
  | c :: cs, .mark c' joint :: rest => if c = c' && joint then behindOperator? cs rest else none
  | _, _ => none

/-- Whether an operator stands in front. A longer operator may begin with it. -/
def atOperator (operator : String) (tokens : List Token) : Bool :=
  (behindOperator? operator.toList tokens).isSome

def atWord (word : String) : List Token → Bool
  | .word word' :: _ => word' == word
  | _ => false

def atOneOf (words : List String) (tokens : List Token) : Bool :=
  words.any (atWord · tokens)

/-- Whether any word stands in front, reserved or not. -/
def atAnyWord : List Token → Bool
  | .word _ :: _ => true
  | _ => false

def atName : List Token → Bool
  | .word word :: _ => isName word
  | _ => false

def atLifetime : List Token → Bool
  | .lifetime _ :: _ => true
  | _ => false

def atGroup (delimiter : Delimiter) : List Token → Bool
  | .group delimiter' _ :: _ => delimiter' = delimiter
  | _ => false

def atAnyGroup : List Token → Bool
  | .group _ _ :: _ => true
  | _ => false

def isNumber (literal : String) : Bool :=
  (literal.toList.head?.map Char.isDigit).getD false

def isInteger (literal : String) : Bool :=
  isNumber literal && !Number.isFloat literal

/-- Whether a literal stands in front. The two truth values and negative numbers are literals. -/
def atLiteral : List Token → Bool
  | .literal _ :: _ => true
  | .word word :: _ => word == "true" || word == "false"
  | .mark '-' _ :: .literal text :: _ => isNumber text
  | _ => false

def atString : List Token → Bool
  | .literal text :: _ => (Quoted.value? text).isSome
  | _ => false

/-- Whether one of the words that begin a path besides names stands in front. -/
def atPathWord (tokens : List Token) : Bool :=
  atOneOf ["super", "self", "Self", "crate"] tokens

namespace Parser

def remaining : Parser (List Token) := do
  return (← get).tokens

def misplaced {α : Type} (text : String) : Parser α := do
  throw (.misplaced text (← remaining).isEmpty)

def rejected {α : Type} (text : String) : Parser α :=
  throw (.rejected text)

/-- Goes on at the tokens `rest` of the same bracket. -/
def advance (rest : List Token) : Parser Unit :=
  modify fun r => { r with tokens := rest }

/-- Reads one token, whatever it is. -/
def anyToken : Parser Trees := do
  match ← remaining with
  | token :: rest =>
    advance rest
    return [.leaf token]
  | [] => misplaced "expected token"

def operator (text : String) : Parser Trees := do
  match behindOperator? text.toList (← remaining) with
  | some rest =>
    advance rest
    return Tree.operator text
  | none => rejected ("expected `" ++ text ++ "`")

def optionalOperator (text : String) : Parser Trees := do
  if atOperator text (← remaining) then operator text else return []

def word (text : String) : Parser Trees := do
  if atWord text (← remaining) then anyToken else misplaced ("expected `" ++ text ++ "`")

def optionalWord (text : String) : Parser Trees := do
  if atWord text (← remaining) then anyToken else return []

def anyWord : Parser String := do
  match ← remaining with
  | .word text :: rest =>
    advance rest
    return text
  | _ => misplaced "expected ident"

def name : Parser Name := do
  match ← remaining with
  | .word text :: rest =>
    match Name.ofWord? text with
    | some name =>
      advance rest
      return name
    | none => misplaced ("expected identifier, found keyword `" ++ text ++ "`")
  | _ => misplaced "expected identifier"

def nameLeaf : Parser Trees := do
  return [.word (← name).text]

def lifetime : Parser Trees := do
  if atLifetime (← remaining) then anyToken else misplaced "expected lifetime"

def optionalLifetime : Parser Trees := do
  if atLifetime (← remaining) then anyToken else return []

def literal : Parser Trees := do
  let tokens ← remaining
  if !atLiteral tokens then misplaced "expected literal"
  else if atOperator "-" tokens then return (← operator "-") ++ (← anyToken)
  else anyToken

def stringLiteral : Parser Trees := do
  if atString (← remaining) then anyToken else misplaced "expected string literal"

def stringValue : Parser String := do
  match ← remaining with
  | .literal text :: rest =>
    match Quoted.value? text with
    | some value =>
      advance rest
      return value
    | none => misplaced "expected string literal"
  | _ => misplaced "expected string literal"

def expectation : Delimiter → String
  | .parenthesis => "expected parentheses"
  | .brace => "expected curly braces"
  | .bracket => "expected square brackets"

def within {α : Type} (delimiter : Delimiter) (inside : Parser α) : Parser α := do
  let r ← get
  match r.tokens with
  | .group delimiter' inner :: rest =>
    if delimiter' = delimiter then
      set { r with tokens := inner }
      let value ← inside
      let r' ← get
      let leftover? := r'.leftover?.or (if r'.tokens.isEmpty then none else some delimiter)
      set (⟨rest, leftover?⟩ : Reading)
      return value
    else misplaced (expectation delimiter)
  | _ => misplaced (expectation delimiter)

def group (delimiter : Delimiter) (inside : Parser Trees) : Parser Trees := do
  return [.group delimiter (← within delimiter inside)]

def anyGroup : Parser Trees := do
  if atAnyGroup (← remaining) then anyToken else misplaced "expected delimiter"

/-- The result of a parser, or `none` where it fails; then nothing is read. -/
def attempt {α : Type} (p : Parser α) : Parser (Option α) := fun r =>
  match p r with
  | .ok (value, r') => .ok (some value, r')
  | .error _ => .ok (none, r)

/-- The tokens read since `start`, as they are written. -/
def keptSince (start : List Token) : Parser Tree := do
  let behind ← remaining
  return .node .verbatim (Tree.leaves (start.take (start.length - behind.length)))

/-- Runs a parser, and gives the tokens that it has read as they are written. -/
def verbatim {α : Type} (p : Parser α) : Parser Tree := do
  let start ← remaining
  let _ ← p
  keptSince start

/-- Runs a step as long as it asks to go on, but at most once more than there are tokens in the given list. -/
def collectFrom {α : Type} (step : Parser (List α × Bool)) : List Token → Parser (List α)
  | [] => return (← step).1
  | _ :: bound => do
    let (found, more) ← step
    if more then return found ++ (← collectFrom step bound) else return found

/-- Runs a step as long as it asks to go on. Each step reads a token, so the tokens that are left bound their
number. -/
def collect {α : Type} (step : Parser (List α × Bool)) : Parser (List α) := do
  collectFrom step (← remaining)

/-- Runs a step on what it has made so far as long as it asks to go on, but at most once more than there are tokens in
the given list. -/
def iterateFrom {α : Type} (step : α → Parser (α × Bool)) : List Token → α → Parser α
  | [], value => return (← step value).1
  | _ :: bound, value => do
    let (value, more) ← step value
    if more then iterateFrom step bound value else return value

/-- Runs a step on what it has made so far as long as it asks to go on. -/
def iterate {α : Type} (step : α → Parser (α × Bool)) (value : α) : Parser α := do
  iterateFrom step (← remaining) value

/-- Runs a parser as long as the tokens in front satisfy `goesOn`. -/
def collectWhile {α : Type} (goesOn : List Token → Bool) (p : Parser (List α)) : Parser (List α) :=
  collect do
    if goesOn (← remaining) then return (← p, true) else return ([], false)

def toEnd {α : Type} (p : Parser (List α)) : Parser (List α) :=
  collectWhile (fun tokens => !tokens.isEmpty) p

/-- Reads what the parser reads and commas between, up to the end of the bracket. A comma may end it. -/
def commaSeparated (p : Parser Trees) : Parser Trees :=
  toEnd do
    let item ← p
    if (← remaining).isEmpty then return item else return item ++ (← operator ",")

def parseAll {α : Type} (p : Parser α) (tokens : List Token) : Except ParseError α := do
  let (value, r) ← p ⟨tokens, none⟩
  match r.leftover? with
  | some delimiter => throw (.leftover (some delimiter))
  | none => if r.tokens.isEmpty then pure value else throw (.leftover none)

def parseText {α : Type} (p : Parser α) (text : String) : Except ParseError α :=
  match Token.ofText? text with
  | some tokens => parseAll p tokens
  | none => throw .noTokens

end Parser

end CommandBinding.Source
