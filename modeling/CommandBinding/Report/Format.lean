import CommandBinding.Data.Json
import CommandBinding.Data.Yaml
import CommandBinding.Report

/-!
Reports as text: as JSON, as YAML, or as tables to be read by people. A table has a block for each report, with a
blank line between two of them.
-/
namespace CommandBinding

inductive ReportFormat where
  | json
  | yaml
  | table
deriving DecidableEq, Repr

namespace ReportFormat

def name : ReportFormat → String
  | json => "json"
  | yaml => "yaml"
  | table => "table"

def ofName? (name : String) : Option ReportFormat :=
  [json, yaml, table].find? (·.name == name)

end ReportFormat

namespace Report.Table

/-- The text with spaces behind it, at least `width` characters long. -/
def padded (width : Nat) (text : String) : String :=
  text ++ String.ofList (List.replicate (width - text.length) ' ')

/-- How a category is shown: the category of what may be given several times or not at all has its element type
behind it, and the category of a value is its type. -/
def categoryText (c : Category) : String :=
  match c with
  | .value type => type
  | .flag | .metaFlag => c.name
  | .optional type | .array type | .variadic type => c.name ++ "<" ++ type ++ ">"

def aliasText (labels : AliasTable) (p : BoundParameter) : String :=
  let spellings := ((labels.get? p.name).map Aliases.spellings).getD []
  if spellings.isEmpty then "(positional)" else ", ".intercalate spellings

/-- The width of the names: that of the longest one, counted in bytes. -/
def nameWidth (ps : List BoundParameter) : Nat :=
  (ps.map (·.name.utf8ByteSize)).foldl max 0

/-- The lines behind a title, which is only shown if there are any. -/
def titled (title : String) (lines : List String) : List String :=
  if lines.isEmpty then [] else "" :: ("  " ++ title ++ ":") :: lines.map ("    " ++ ·)

def stateLines : Option StateThread → List String
  | some state =>
    ["", "  State: " ++ state.elementType ++ (if state.synthesized then " (synthesized)" else " (declared)")]
  | none => []

def bindingLines (b : Binding) : List String :=
  let width := nameWidth b.parameters
  ("  Command: " ++ b.commandName) ::
    titled "Parameters" (b.parameters.map fun p =>
      padded width p.name ++ "  " ++ padded 20 (categoryText p.category) ++ "  " ++ aliasText b.tables.labels p) ++
    titled "Shadow groups" b.tables.shadowGroups ++
    titled "Meta flags" (b.tables.metaFlags.map fun m => m.parameter ++ " = " ++ m.default) ++
    stateLines b.state

def lines (r : Report) : List String :=
  (r.function ++ "  #[" ++ r.directive.attributeName ++ "]") ::
    match r.outcome with
    | .ok binding => bindingLines binding
    | .error found => found.map fun f => "  error [" ++ f.kind.text ++ "] " ++ f.message

def block (r : Report) : String :=
  String.join ((lines r).map (· ++ "\n"))

end Report.Table

namespace Report

def format (path : String) (reports : List Report) : ReportFormat → String
  | .json => Data.Json.render 0 (.list (reports.map (toData path)))
  | .yaml => Data.Yaml.document (reports.map (toData path))
  | .table => "\n".intercalate (reports.map Table.block)

end Report

end CommandBinding
