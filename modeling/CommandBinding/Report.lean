import CommandBinding.Codec
import CommandBinding.Source.Declaration
import CommandBinding.Source.File

/-!
Reports on source. Every directive on a function gives a report: the binding of the function, or what was found. A
directive on a definition of another kind is reported too. Reports come in the order of the source; those on what
stands inside a function come behind its own.
-/
namespace CommandBinding

open Source

structure Report where
  /-- The name of the definition, as it is written. -/
  function : String
  directive : DirectiveKind
  outcome : Except (List Finding) Binding

namespace Report

def findings (r : Report) : List Finding :=
  match r.outcome with
  | .ok _ => []
  | .error found => found

def bindFunction (f : FunctionItem) (settings : Settings) (kind : DirectiveKind) (a : Attribute) :
    Except (List Finding) Binding :=
  match directiveOfAttribute kind a with
  | .ok directive => f.bind directive settings
  | .error e => .error [.onDirective (.invalidDirective e.message)]

/-- The report on one attribute, if it is a directive. -/
def ofAttribute? (name : String) (check : DirectiveKind → Attribute → Except (List Finding) Binding)
    (a : Attribute) : Option Report :=
  (directiveKind? a).map fun kind => ⟨name, kind, check kind a⟩

def ofFunction (settings : Settings) (f : FunctionItem) : List Report :=
  f.attributes.filterMap (ofAttribute? f.signature.name.text (bindFunction f settings))

/-- The reports on the attributes of a definition that is no function. -/
def ofDefinition (name : String) (attributes : List Attribute) : List Report :=
  attributes.filterMap (ofAttribute? name fun _ _ => .error [.onFunction .notAFunction])

mutual

def ofTree (settings : Settings) : Tree → List Report
  | .leaf _ => []
  | .group _ inner => ofTrees settings inner
  | .node _ children => ofTrees settings children
  | .function f inside => ofFunction settings f ++ ofTrees settings inside
  | .written _ inside => ofTrees settings inside
  | .definition name attributes children => ofDefinition name attributes ++ ofTrees settings children

def ofTrees (settings : Settings) : List Tree → List Report
  | [] => []
  | tree :: rest => ofTree settings tree ++ ofTrees settings rest

end

def ofSource (text : String) (settings : Settings) : Except ParseError (List Report) :=
  (parseFile text).map (ofTrees settings)

def outcomeFields : Except (List Finding) Binding → List (String × Data)
  | .ok binding => [("status", .string "compiled"), ("binding", binding.toData)]
  | .error found => [("status", .string "failed"), ("diagnostics", .list (found.map Finding.toData))]

def toData (path : String) (r : Report) : Data :=
  .record ([("file", .string path), ("function", .string r.function), ("directive", r.directive.toData)] ++
    outcomeFields r.outcome)

def lines (path : String) (r : Report) : List String :=
  r.findings.map fun f => path ++ ": " ++ r.function ++ ": [" ++ f.kind.text ++ "] " ++ f.message

end Report

end CommandBinding
