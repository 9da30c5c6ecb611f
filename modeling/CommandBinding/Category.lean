import CommandBinding.Finding
import CommandBinding.Settings
import CommandBinding.WorkFunction

/-!
Parameter categories. The declared type of a parameter decides how its value is typed by a user, and the category
decides which defaults and labels are allowed. `Parameter.classify` gives a category and all faults, never one
instead of the other, so that later rules can go on.
-/
namespace CommandBinding

/-- How a parameter is given on the command line; the text is the type of its value or of one element. -/
inductive Category where
  /-- One value. -/
  | value (type : String)
  /-- A switch, off when absent. -/
  | flag
  /-- A switch that shows a fixed payload. -/
  | metaFlag
  /-- One value or none. -/
  | optional (type : String)
  /-- Any number of repeated values. -/
  | array (type : String)
  /-- A trailing run of values. -/
  | variadic (type : String)
deriving DecidableEq, Repr

namespace Category

def name : Category → String
  | value _ => "value"
  | flag => "flag"
  | metaFlag => "meta flag"
  | optional _ => "optional"
  | array _ => "array"
  | variadic _ => "variadic"

/-- The type of a value or element, for the categories that have one. -/
def valueType? : Category → Option String
  | value type | optional type | array type | variadic type => some type
  | flag | metaFlag => none

/-- The category of a type that wraps no element: the reserved flag names are recognised under any path. -/
def ofUnwrapped (type : String) (settings : Settings) : Category :=
  let last := CodeText.lastSegment type
  if last = settings.flagType then .flag
  else if last = settings.metaFlagType then .metaFlag
  else .value type

def ofType (type : String) (settings : Settings) : Category :=
  match CodeText.wrapped? type with
  | some (head, inner) =>
    if head = "Vec" then .array inner
    else if head = "Option" then .optional inner
    else if head = settings.variadicType then .variadic inner
    else ofUnwrapped type settings
  | none => ofUnwrapped type settings

end Category

def emptySequenceTexts : List String := ["vec![]", "Vec::new()", "Default::default()"]

/-- A label from which no alias is derived. -/
def isPlaceholderLabel (label : String) : Bool :=
  label == positionalLabel || label == ""

structure BoundParameter where
  name : String
  label : String
  category : Category
  default? : Option String
deriving DecidableEq, Repr

namespace BoundParameter

def isPositional (p : BoundParameter) : Bool :=
  isPlaceholderLabel p.label

/-- Whether the parameter is named like one that carries the chain state. -/
def isChainWiring (p : BoundParameter) : Bool :=
  p.name == nodePathName || p.name == stateName

end BoundParameter

namespace Parameter

def bound (p : Parameter) (settings : Settings) : BoundParameter :=
  ⟨p.name, p.label, Category.ofType p.typeText settings, p.default?⟩

/-- A flag or meta flag must have a label. -/
def labelFaults (p : Parameter) (typeName : String) : List Fault :=
  if isPlaceholderLabel p.label then [.unlabeledFlag p.name typeName] else []

/-- What the default and the label of a parameter violate, given its category. -/
def categoryFaults (p : Parameter) (settings : Settings) : Category → List Fault
  | .flag =>
    (if p.default? = some "true" then [.flagDefaultsToTrue p.name] else []) ++ p.labelFaults settings.flagType
  | .metaFlag =>
    (if p.default?.isNone then [.missingMetaFlagDefault p.name] else []) ++ p.labelFaults settings.metaFlagType
  | .optional _ => if p.default?.all (· == "None") then [] else [.optionalWithDefault p.name]
  | .array _ =>
    if p.default?.all emptySequenceTexts.contains then [] else [.nonEmptySequenceDefault p.name "arrays"]
  | .variadic _ =>
    if p.default?.all emptySequenceTexts.contains then [] else [.nonEmptySequenceDefault p.name "variadics"]
  | .value _ => []

def findings (p : Parameter) (settings : Settings) : List Finding :=
  (p.categoryFaults settings (Category.ofType p.typeText settings)).map (Finding.onParameter p.name)

def classify (p : Parameter) (settings : Settings) : BoundParameter × List Finding :=
  (p.bound settings, p.findings settings)

end Parameter

end CommandBinding
