import CommandBinding.Binding
import CommandBinding.Data

/-!
The data form of the binding model. Every type has a writer `toData` and a reader `ofData?`. The category of a
parameter, the aliases of a row and the target of a finding are written into the record that holds them; texts of a
function that are empty are left out.
-/
namespace CommandBinding

namespace Settings

def toData (s : Settings) : Data :=
  .record [("flag_type", .string s.flagType), ("meta_flag_type", .string s.metaFlagType),
    ("variadic_type", .string s.variadicType), ("chain_node_type", .string s.chainNodeType),
    ("label_separator", .string s.labelSeparator)]

/-- Reads settings. Whatever is missing has its usual value. -/
def ofData? (d : Data) : Option Settings := do
  let _ ← d.record?
  let usual : Settings := {}
  pure {
    flagType := ← d.fieldOr "flag_type" Data.string? usual.flagType
    metaFlagType := ← d.fieldOr "meta_flag_type" Data.string? usual.metaFlagType
    variadicType := ← d.fieldOr "variadic_type" Data.string? usual.variadicType
    chainNodeType := ← d.fieldOr "chain_node_type" Data.string? usual.chainNodeType
    labelSeparator := ← d.fieldOr "label_separator" Data.string? usual.labelSeparator }

end Settings

namespace Parameter

def toData (p : Parameter) : Data :=
  .record [("label", .string p.label), ("name", .string p.name), ("type_text", .string p.typeText),
    ("default", .optional p.default?)]

def ofData? (d : Data) : Option Parameter := do
  let _ ← d.record?
  pure ⟨← (d.field "label").string?, ← (d.field "name").string?, ← (d.field "type_text").string?,
    ← (d.field "default").optional?⟩

end Parameter

namespace WorkFunction

def textField (name text : String) : List (String × Data) :=
  if text = "" then [] else [(name, .string text)]

def toData (f : WorkFunction) : Data :=
  .record ([("name", .string f.name)] ++ textField "generics" f.generics ++ textField "modifiers" f.modifiers ++
    [("is_async", .bool f.isAsync), ("fallible", .bool f.fallible),
     ("parameters", .list (f.parameters.map Parameter.toData)), ("return_type", .string f.returnType)])

/-- Reads a function. Only its name and its parameters are required. -/
def ofData? (d : Data) : Option WorkFunction := do
  let _ ← d.record?
  pure {
    name := ← (d.field "name").string?
    generics := ← d.fieldOr "generics" Data.string? ""
    modifiers := ← d.fieldOr "modifiers" Data.string? ""
    isAsync := ← d.fieldOr "is_async" Data.bool? false
    fallible := ← d.fieldOr "fallible" Data.bool? false
    parameters := ← (← (d.field "parameters").list?).mapM Parameter.ofData?
    returnType := ← d.fieldOr "return_type" Data.string? "" }

end WorkFunction

namespace Category

/-- The fields that record a category. Flags have no type. -/
def fields : Category → List (String × Data)
  | value type => [("category", .string "value"), ("type", .string type)]
  | flag => [("category", .string "flag")]
  | metaFlag => [("category", .string "meta_flag")]
  | optional type => [("category", .string "optional"), ("type", .string type)]
  | array type => [("category", .string "array"), ("type", .string type)]
  | variadic type => [("category", .string "variadic"), ("type", .string type)]

def ofData? (d : Data) : Option Category := do
  match ← (d.field "category").string? with
  | "value" => pure (value (← (d.field "type").string?))
  | "flag" => pure flag
  | "meta_flag" => pure metaFlag
  | "optional" => pure (optional (← (d.field "type").string?))
  | "array" => pure (array (← (d.field "type").string?))
  | "variadic" => pure (variadic (← (d.field "type").string?))
  | _ => none

end Category

namespace BoundParameter

def toData (p : BoundParameter) : Data :=
  .record ([("name", .string p.name), ("label", .string p.label)] ++ p.category.fields ++
    [("default", .optional p.default?)])

def ofData? (d : Data) : Option BoundParameter := do
  let _ ← d.record?
  pure ⟨← (d.field "name").string?, ← (d.field "label").string?, ← Category.ofData? d,
    ← (d.field "default").optional?⟩

end BoundParameter

namespace Aliases

def fields (a : Aliases) : List (String × Data) :=
  [("short", .optional a.short), ("legacy", .optional a.legacy), ("long", .optional a.long)]

def toData (a : Aliases) : Data :=
  .record a.fields

def ofData? (d : Data) : Option Aliases := do
  let _ ← d.record?
  pure ⟨← (d.field "short").optional?, ← (d.field "legacy").optional?, ← (d.field "long").optional?⟩

end Aliases

namespace AliasRow

def toData (r : AliasRow) : Data :=
  .record (("parameter", .string r.parameter) :: r.aliases.fields)

def ofData? (d : Data) : Option AliasRow := do
  pure ⟨← (d.field "parameter").string?, ← Aliases.ofData? d⟩

end AliasRow

namespace AliasTable

def toData (table : AliasTable) : Data :=
  .list (table.map AliasRow.toData)

def ofData? (d : Data) : Option AliasTable := do
  (← d.list?).mapM AliasRow.ofData?

end AliasTable

namespace GroupArgument

def toData : GroupArgument → Data
  | literal text => .record [("kind", .string "literal"), ("text", .string text)]
  | expression text => .record [("kind", .string "expression"), ("text", .string text)]

def ofData? (d : Data) : Option GroupArgument := do
  match ← (d.field "kind").string? with
  | "literal" => pure (literal (← (d.field "text").string?))
  | "expression" => pure (expression (← (d.field "text").string?))
  | _ => none

end GroupArgument

namespace DirectiveKind

/-- The kind as data: the name that the directive is written with. -/
def toData (k : DirectiveKind) : Data :=
  .string k.attributeName

def ofData? (d : Data) : Option DirectiveKind := do
  ofAttributeName? (← d.string?)

end DirectiveKind

namespace Directive

def toData (d : Directive) : Data :=
  .record [("kind", d.kind.toData), ("shadow_groups", .list (d.shadowGroups.map GroupArgument.toData)),
    ("associated", .bool d.associated), ("runtime", .optional d.runtime?)]

def groupsOfData? (d : Data) : Option (List GroupArgument) := do
  (← d.list?).mapM GroupArgument.ofData?

/-- Reads a directive. Only its kind is required. -/
def ofData? (d : Data) : Option Directive := do
  let _ ← d.record?
  pure {
    kind := ← DirectiveKind.ofData? (d.field "kind")
    shadowGroups := ← d.fieldOr "shadow_groups" groupsOfData? []
    associated := ← d.fieldOr "associated" Data.bool? false
    runtime? := ← (d.field "runtime").optional? }

end Directive

namespace StateThread

def toData (t : StateThread) : Data :=
  .record [("element_type", .string t.elementType), ("synthesized", .bool t.synthesized)]

def ofData? (d : Data) : Option StateThread := do
  pure ⟨← (d.field "element_type").string?, ← (d.field "synthesized").bool?⟩

end StateThread

namespace MetaFlagDefault

def toData (m : MetaFlagDefault) : Data :=
  .record [("parameter", .string m.parameter), ("default", .string m.default)]

def ofData? (d : Data) : Option MetaFlagDefault := do
  pure ⟨← (d.field "parameter").string?, ← (d.field "default").string?⟩

end MetaFlagDefault

namespace RuntimeTables

def toData (t : RuntimeTables) : Data :=
  .record [("meta_flags", .list (t.metaFlags.map MetaFlagDefault.toData)),
    ("shadow_groups", .strings t.shadowGroups), ("labels", t.labels.toData)]

def ofData? (d : Data) : Option RuntimeTables := do
  pure ⟨← (← (d.field "meta_flags").list?).mapM MetaFlagDefault.ofData?, ← (d.field "shadow_groups").strings?,
    ← AliasTable.ofData? (d.field "labels")⟩

end RuntimeTables

namespace Binding

def stateToData : Option StateThread → Data
  | some t => t.toData
  | none => .null

def stateOfData? : Data → Option (Option StateThread)
  | .null => some none
  | d => (StateThread.ofData? d).map some

def toData (b : Binding) : Data :=
  .record [("kind", b.kind.toData), ("call_name", .string b.commandName), ("function", b.function.toData),
    ("parameters", .list (b.parameters.map BoundParameter.toData)), ("config", b.tables.toData),
    ("state", stateToData b.state)]

def ofData? (d : Data) : Option Binding := do
  pure {
    kind := ← DirectiveKind.ofData? (d.field "kind")
    commandName := ← (d.field "call_name").string?
    function := ← WorkFunction.ofData? (d.field "function")
    parameters := ← (← (d.field "parameters").list?).mapM BoundParameter.ofData?
    tables := ← RuntimeTables.ofData? (d.field "config")
    state := ← stateOfData? (d.field "state") }

end Binding

namespace Fault

/-- The fault as data: its name, with what it needs if it needs anything. -/
def toData : Fault → Data
  | flagDefaultsToTrue p => .variant "FlagDefaultsToTrue" (.record [("parameter", .string p)])
  | missingMetaFlagDefault p => .variant "MissingMetaFlagDefault" (.record [("parameter", .string p)])
  | unlabeledFlag p typeName =>
    .variant "UnlabeledFlag" (.record [("parameter", .string p), ("type_name", .string typeName)])
  | optionalWithDefault p => .variant "OptionalWithDefault" (.record [("parameter", .string p)])
  | nonEmptySequenceDefault p category =>
    .variant "NonEmptySequenceDefault" (.record [("parameter", .string p), ("category", .string category)])
  | invalidLabel p label => .variant "InvalidLabel" (.record [("parameter", .string p), ("label", .string label)])
  | duplicateAlias name ps =>
    .variant "DuplicateAlias" (.record [("alias", .string name), ("parameters", .strings ps)])
  | shadowGroupsNotLiteral => .string "ShadowGroupsNotLiteral"
  | unknownShadowedNames names => .variant "UnknownShadowedNames" (.record [("names", .strings names)])
  | missingNodePath expected => .variant "MissingNodePath" (.record [("expected", .string expected)])
  | stateReturnMismatch expected => .variant "StateReturnMismatch" (.record [("expected", .string expected)])
  | stateNotSequence found => .variant "StateNotSequence" (.record [("found", .string found)])
  | stateNotLast => .string "StateNotLast"
  | nodePathWithoutState => .string "NodePathWithoutState"
  | returnTypeNotSequence found => .variant "ReturnTypeNotSequence" (.record [("found", .string found)])
  | notAFunction => .string "NotAFunction"
  | mainFunctionReturnsValue => .string "MainFunctionReturnsValue"
  | genericMainFunction => .string "GenericMainFunction"
  | reservedFunctionName => .string "ReservedFunctionName"
  | selfReceiver => .string "SelfReceiver"
  | unsupportedPattern pattern => .variant "UnsupportedPattern" (.record [("pattern", .string pattern)])
  | invalidDirective reason => .variant "InvalidDirective" (.string reason)
  | invalidArgument reason => .variant "InvalidArgument" (.string reason)

def ofName? : String → Option Fault
  | "ShadowGroupsNotLiteral" => some shadowGroupsNotLiteral
  | "StateNotLast" => some stateNotLast
  | "NodePathWithoutState" => some nodePathWithoutState
  | "NotAFunction" => some notAFunction
  | "MainFunctionReturnsValue" => some mainFunctionReturnsValue
  | "GenericMainFunction" => some genericMainFunction
  | "ReservedFunctionName" => some reservedFunctionName
  | "SelfReceiver" => some selfReceiver
  | _ => none

def ofVariant? (name : String) (d : Data) : Option Fault := do
  match name with
  | "FlagDefaultsToTrue" => pure (flagDefaultsToTrue (← (d.field "parameter").string?))
  | "MissingMetaFlagDefault" => pure (missingMetaFlagDefault (← (d.field "parameter").string?))
  | "UnlabeledFlag" =>
    pure (unlabeledFlag (← (d.field "parameter").string?) (← (d.field "type_name").string?))
  | "OptionalWithDefault" => pure (optionalWithDefault (← (d.field "parameter").string?))
  | "NonEmptySequenceDefault" =>
    pure (nonEmptySequenceDefault (← (d.field "parameter").string?) (← (d.field "category").string?))
  | "InvalidLabel" => pure (invalidLabel (← (d.field "parameter").string?) (← (d.field "label").string?))
  | "DuplicateAlias" => pure (duplicateAlias (← (d.field "alias").string?) (← (d.field "parameters").strings?))
  | "UnknownShadowedNames" => pure (unknownShadowedNames (← (d.field "names").strings?))
  | "MissingNodePath" => pure (missingNodePath (← (d.field "expected").string?))
  | "StateReturnMismatch" => pure (stateReturnMismatch (← (d.field "expected").string?))
  | "StateNotSequence" => pure (stateNotSequence (← (d.field "found").string?))
  | "ReturnTypeNotSequence" => pure (returnTypeNotSequence (← (d.field "found").string?))
  | "UnsupportedPattern" => pure (unsupportedPattern (← (d.field "pattern").string?))
  | "InvalidDirective" => pure (invalidDirective (← d.string?))
  | "InvalidArgument" => pure (invalidArgument (← d.string?))
  | _ => if d matches .null then ofName? name else none

/-- Reads a fault. A named alternative may also be a record with one field. -/
def ofData? : Data → Option Fault
  | .string name => ofName? name
  | .variant name payload => ofVariant? name payload
  | .record [(name, payload)] => ofVariant? name payload
  | _ => none

end Fault

namespace Finding

def targetFields : Target → List (String × Data)
  | .function => [("target", .string "function")]
  | .directive => [("target", .string "directive")]
  | .parameter name => [("target", .string "parameter"), ("name", .string name)]

def targetOfData? (d : Data) : Option Target := do
  match ← (d.field "target").string? with
  | "function" => pure .function
  | "directive" => pure .directive
  | "parameter" => pure (.parameter (← (d.field "name").string?))
  | _ => none

def fields (f : Finding) : List (String × Data) :=
  ("error", f.fault.toData) :: targetFields f.target

def toData (f : Finding) : Data :=
  .record f.fields

def ofData? (d : Data) : Option Finding := do
  pure ⟨← Fault.ofData? (d.field "error"), ← targetOfData? d⟩

end Finding

end CommandBinding
