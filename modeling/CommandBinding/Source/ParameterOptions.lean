import CommandBinding.Source.KeyedArguments

/-!
The options of a parameter, which its `#[arg(…)]` attributes give: a label, no label at all, or a default.
-/
namespace CommandBinding.Source

open CommandBinding.Source.Parser

def optionAttribute : String := "arg"

structure ParameterOptions where
  label? : Option String := none
  isPositional : Bool := false
  /-- The default expression. -/
  default? : Option Tree := none

namespace ParameterOptions

/-- Reads what stands behind a key. A label is a string or any word. -/
def entry (rec : Recur) (key : List Token) (options : ParameterOptions) : Parser ParameterOptions := do
  if key == [.word "label"] then
    let _ ← operator "="
    let label ← if atString (← remaining) then stringValue else unraw <$> anyWord
    return { options with label? := some label }
  else if key == [.word "positional"] then return { options with isPositional := true }
  else if key == [.word "default"] then
    let _ ← operator "="
    return { options with default? := some (← rec.expression true) }
  else rejected "expected `label`, `positional` or `default`"

def argumentsOf (a : Attribute) : Except ParseError (List Token) :=
  match a.content with
  | .arguments _ tokens => .ok tokens
  | .nothing => .error (.rejected s!"expected attribute arguments in parentheses: #[{optionAttribute}(...)]")
  | .value _ => .error (.rejected s!"expected parentheses: #[{optionAttribute}(...)]")

/-- The options after one more attribute; what it says counts instead of what was said before. -/
def after (options : ParameterOptions) (a : Attribute) : Except ParseError ParameterOptions := do
  parse (fun rec => keyedArguments (entry rec) options) (← argumentsOf a)

/-- The options that attributes give. Attributes of other names say nothing. -/
def ofAttributes (attributes : List Attribute) : Except ParseError ParameterOptions :=
  (attributes.filter (·.isNamed optionAttribute)).foldlM after {}

def defaultText? (options : ParameterOptions) : Option String :=
  options.default?.map fun tree => Tree.textOf [tree]

end ParameterOptions

end CommandBinding.Source
