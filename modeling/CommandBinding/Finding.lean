/-!
What can be wrong with a work function. A `Fault` is the cause, with all its message needs; a `Finding` is a fault
with the part of the declaration where it stands.
-/
namespace CommandBinding

inductive FaultKind where
  | typeConstraint
  | labelForm
  | labelConflict
  | shadowGroupForm
  | shadowGroupUnknownName
  | stateContract
  | usage
deriving DecidableEq, Repr

namespace FaultKind

def name : FaultKind → String
  | typeConstraint => "TypeConstraintViolation"
  | labelForm => "LabelSyntaxError"
  | labelConflict => "LabelConflict"
  | shadowGroupForm => "ShadowGroupSyntaxError"
  | shadowGroupUnknownName => "ShadowGroupUnknownName"
  | stateContract => "StateContractViolation"
  | usage => "UsageError"

def text : FaultKind → String
  | typeConstraint => "type-constraint"
  | labelForm => "label-syntax"
  | labelConflict => "label-conflict"
  | shadowGroupForm => "shadow-group-syntax"
  | shadowGroupUnknownName => "shadow-group-unknown-name"
  | stateContract => "state-contract"
  | usage => "usage"

end FaultKind

inductive Fault where
  /-- A flag is absent by default, so `true` is no default for it. -/
  | flagDefaultsToTrue (parameter : String)
  /-- A meta flag shows its default, so it needs one. -/
  | missingMetaFlagDefault (parameter : String)
  /-- A flag is given by its alias, so it needs a label. -/
  | unlabeledFlag (parameter typeName : String)
  /-- An optional parameter is absent by default. -/
  | optionalWithDefault (parameter : String)
  /-- A repeated parameter starts out empty; `category` is the plural name of its category. -/
  | nonEmptySequenceDefault (parameter category : String)
  | invalidLabel (parameter label : String)
  /-- Several parameters claim one alias. -/
  | duplicateAlias (text : String) (parameters : List String)
  | shadowGroupsNotLiteral
  | unknownShadowedNames (names : List String)
  | missingNodePath (expected : String)
  | stateReturnMismatch (expected : String)
  | stateNotSequence (found : String)
  | stateNotLast
  | nodePathWithoutState
  | returnTypeNotSequence (found : String)
  | notAFunction
  | mainFunctionReturnsValue
  | genericMainFunction
  | reservedFunctionName
  | selfReceiver
  | unsupportedPattern (pattern : String)
  | invalidDirective (reason : String)
  | invalidArgument (reason : String)
deriving DecidableEq, Repr

/-- Names in quotes, with commas between and `and` in front of the last one. -/
def quotedList (names : List String) : String :=
  let quoted := names.map fun name => "'" ++ name ++ "'"
  match quoted.reverse with
  | [] => ""
  | [only] => only
  | last :: front => ", ".intercalate front.reverse ++ " and " ++ last

namespace Fault

def kind : Fault → FaultKind
  | flagDefaultsToTrue _ | missingMetaFlagDefault _ | unlabeledFlag _ _ | optionalWithDefault _
  | nonEmptySequenceDefault _ _ => .typeConstraint
  | invalidLabel _ _ => .labelForm
  | duplicateAlias _ _ => .labelConflict
  | shadowGroupsNotLiteral => .shadowGroupForm
  | unknownShadowedNames _ => .shadowGroupUnknownName
  | missingNodePath _ | stateReturnMismatch _ | stateNotSequence _ | stateNotLast | nodePathWithoutState
  | returnTypeNotSequence _ => .stateContract
  | notAFunction | mainFunctionReturnsValue | genericMainFunction | reservedFunctionName | selfReceiver
  | unsupportedPattern _ | invalidDirective _ | invalidArgument _ => .usage

def message : Fault → String
  | flagDefaultsToTrue p =>
    s!"the parameter '{p}' has a default value of 'true', which is not allowed for flags"
  | missingMetaFlagDefault p => s!"the parameter '{p}' is missing its required default value"
  | unlabeledFlag p typeName => s!"the parameter '{p}', a {typeName}, must have a label"
  | optionalWithDefault p =>
    s!"the parameter '{p}' has a default value other than 'None', which is not allowed for optional types"
  | nonEmptySequenceDefault p category =>
    s!"the parameter '{p}' has a default value other than an empty sequence, which is not allowed for {category}"
  | invalidLabel p label =>
    s!"the label '{label}' of parameter '{p}' is not valid (only ASCII letters, digits and '_' are allowed)"
  | duplicateAlias name parameters =>
    "alias '" ++ name ++ "' is duplicated, used by " ++ quotedList parameters
  | shadowGroupsNotLiteral => "all shadow_groups arguments must be string literals"
  | unknownShadowedNames names =>
    "unrecognized shadowed parameter " ++ (if names.length = 1 then "name" else "names") ++ ": " ++
      quotedList names
  | missingNodePath expected => s!"penultimate parameter must be 'node_path: {expected}'"
  | stateReturnMismatch expected => s!"return type mismatch: expected '{expected}'"
  | stateNotSequence found => s!"the 'state' parameter must be a sequence, found '{found}'"
  | stateNotLast => "the 'state' parameter must be the last parameter"
  | nodePathWithoutState => "work function has a parameter named 'node_path', but none named 'state'"
  | returnTypeNotSequence found => s!"return type must be a sequence, found '{found}'"
  | notAFunction => "only applies to functions"
  | mainFunctionReturnsValue => "functions annotated with #[main_function] cannot have return values"
  | genericMainFunction => "functions annotated with #[main_function] cannot be generic"
  | reservedFunctionName => "work function names starting with \"__\" cannot end with \"__\""
  | selfReceiver => "work functions cannot take a `self` receiver"
  | unsupportedPattern pattern => s!"parameter patterns must be plain identifiers, found '{pattern}'"
  | invalidDirective reason => "invalid directive argument: " ++ reason
  | invalidArgument reason => "invalid #[arg] attribute: " ++ reason

end Fault

inductive Target where
  | function
  | directive
  | parameter (name : String)
deriving DecidableEq, Repr

structure Finding where
  fault : Fault
  target : Target
deriving DecidableEq, Repr

namespace Finding

def onFunction (fault : Fault) : Finding := ⟨fault, .function⟩

def onDirective (fault : Fault) : Finding := ⟨fault, .directive⟩

def onParameter (name : String) (fault : Fault) : Finding := ⟨fault, .parameter name⟩

def kind (f : Finding) : FaultKind := f.fault.kind

def message (f : Finding) : String := f.fault.message

end Finding

/-- The value if nothing was found, and the findings otherwise. -/
def unlessFound {α : Type} (findings : List Finding) (value : α) : Except (List Finding) α :=
  if findings.isEmpty then .ok value else .error findings

theorem unlessFound_eq_ok_iff {α : Type} {findings : List Finding} {value result : α} :
    unlessFound findings value = .ok result ↔ findings = [] ∧ value = result := by
  unfold unlessFound
  split <;> simp_all

theorem unlessFound_eq_error_iff {α : Type} {found findings : List Finding} {value : α} :
    unlessFound findings value = .error found ↔ findings ≠ [] ∧ findings = found := by
  unfold unlessFound
  split <;> simp_all

end CommandBinding
