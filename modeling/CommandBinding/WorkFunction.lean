import CommandBinding.CallName
import CommandBinding.CodeText

/-!
Declared work functions: what a function looks like to the binding rules. Types and defaults are texts in the
spacing of `CodeText.tight`.
-/
namespace CommandBinding

/-- The label of a parameter that takes no command-line alias. -/
def positionalLabel : String := "_"

/-- The type that carries no value. -/
def unitType : String := "()"

/-- The parameter that receives the chain nodes above a command action. -/
def nodePathName : String := "node_path"

/-- The parameter that receives the state that the ancestors of a command action have built. -/
def stateName : String := "state"

/-- A declared parameter. Its label is what command-line aliases are derived from. -/
structure Parameter where
  label : String
  name : String
  typeText : String
  default? : Option String
deriving DecidableEq, Repr, Inhabited

namespace Parameter

def declare (name type : String) : Parameter :=
  ⟨name, name, CodeText.tight type, none⟩

def labelled (p : Parameter) (label : String) : Parameter :=
  { p with label }

def positional (p : Parameter) : Parameter :=
  p.labelled positionalLabel

def withDefault (p : Parameter) (expression : String) : Parameter :=
  { p with default? := some (CodeText.tight expression) }

end Parameter

/-- A declared function. `returnType` is the type of a successful call, empty for none; `generics` and `modifiers`
are empty when the declaration has none. -/
structure WorkFunction where
  name : String
  generics : String
  modifiers : String
  isAsync : Bool
  fallible : Bool
  parameters : List Parameter
  returnType : String
deriving DecidableEq, Repr, Inhabited

namespace WorkFunction

def named (name : String) : WorkFunction :=
  ⟨name, "", "", false, false, [], ""⟩

def withParameter (f : WorkFunction) (p : Parameter) : WorkFunction :=
  { f with parameters := f.parameters ++ [p] }

/-- The function with the given type of a successful call. The unit type counts as none. -/
def returning (f : WorkFunction) (type : String) : WorkFunction :=
  let text := CodeText.tight type
  { f with returnType := if text = unitType then "" else text }

def parameter? (f : WorkFunction) (name : String) : Option Parameter :=
  f.parameters.find? (·.name == name)

/-- The names of the parameters, in order. -/
def parameterNames (f : WorkFunction) : List String :=
  f.parameters.map (·.name)

def commandName (f : WorkFunction) : String :=
  callName f.name

end WorkFunction

end CommandBinding
