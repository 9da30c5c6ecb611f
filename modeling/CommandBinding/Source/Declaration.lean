import CommandBinding.Source.DirectiveArguments
import CommandBinding.Source.ParameterOptions

/-!
From the source of a function to the work function that the binding rules look at. A parameter that cannot be bound
is reported and left out, so that the rest is still checked.
-/
namespace CommandBinding.Source

def tightText (tokens : List Token) : String :=
  CodeText.tight (Token.textOf tokens)

namespace TypedInput

def declared (name : Name) (type : List Token) (options : ParameterOptions) : Parameter :=
  let p := Parameter.declare name.plain (tightText type)
  let p := (options.label?.map p.labelled).getD p
  let p := if options.isPositional then p.positional else p
  (options.defaultText?.map fun text => p.withDefault (CodeText.tight text)).getD p

/-- The declared parameter, or why there is none. -/
def declare (input : TypedInput) : Except Finding Parameter :=
  match input.name? with
  | none => .error (.onFunction (.unsupportedPattern (tightText input.pattern)))
  | some name =>
    match ParameterOptions.ofAttributes input.attributes with
    | .ok options => .ok (declared name input.type options)
    | .error e => .error (.onParameter name.plain (.invalidArgument e.message))

end TypedInput

namespace Input

/-- The declared parameter, or why there is none. -/
def declare : Input → Except Finding Parameter
  | receiver _ _ => .error (.onFunction .selfReceiver)
  | typed input => input.declare

/-- The parameter without its options. A receiver keeps all its attributes. -/
def withoutOptions : Input → Input
  | receiver attributes self => receiver attributes self
  | typed input => typed { input with attributes := input.attributes.filter (!·.isNamed optionAttribute) }

end Input

def values {ε α : Type} (results : List (Except ε α)) : List α :=
  results.filterMap fun
    | .ok value => some value
    | .error _ => none

def errors {ε α : Type} (results : List (Except ε α)) : List ε :=
  results.filterMap fun
    | .ok _ => none
    | .error e => some e

namespace Output

/-- The type of a successful call, which is the output type itself if it is no result. -/
def successType (output : Output) : List Token :=
  output.success?.getD output.type

end Output

namespace Signature

def withoutOptions (s : Signature) : Signature :=
  { s with inputs := s.inputs.map Input.withoutOptions }

def isFallible (s : Signature) : Bool :=
  s.output?.any (·.success?.isSome)

/-- The words in front of the function that say where and how it may be called. -/
def modifiers (s : Signature) (visibility : List Token) : List Token :=
  visibility ++ optionalWord "const" s.isConst ++ optionalWord "unsafe" s.isUnsafe

def declaredHead (s : Signature) (visibility : List Token) : WorkFunction :=
  let f : WorkFunction := {
    name := s.name.plain
    generics := tightText s.genericTokens
    modifiers := tightText (s.modifiers visibility)
    isAsync := s.isAsync
    fallible := s.isFallible
    parameters := []
    returnType := "" }
  match s.output? with
  | some output => f.returning (tightText output.successType)
  | none => f

/-- The declared function with the parameters that can be bound, and the findings about the others. -/
def declare (s : Signature) (visibility : List Token) : WorkFunction × List Finding :=
  let results := s.inputs.map Input.declare
  ({ s.declaredHead visibility with parameters := values results }, errors results)

/-- Binds the declared function as the directive asks. The findings of the declaration stand in front. -/
def bind (s : Signature) (visibility : List Token) (directive : Directive) (settings : Settings) :
    Except (List Finding) Binding :=
  let (f, found) := s.declare visibility
  match f.bind directive settings with
  | .ok binding => unlessFound found binding
  | .error more => .error (found ++ more)

end Signature

namespace FunctionItem

/-- The declared function, and the findings about what cannot be declared. -/
def declare (f : FunctionItem) : WorkFunction × List Finding :=
  f.signature.declare f.visibility

def bind (f : FunctionItem) (directive : Directive) (settings : Settings) : Except (List Finding) Binding :=
  f.signature.bind f.visibility directive settings

def withoutOptions (f : FunctionItem) : FunctionItem :=
  { f with signature := f.signature.withoutOptions }

end FunctionItem

end CommandBinding.Source
