import CommandBinding.Data.Yaml.Node
import CommandBinding.Settings
import CommandBinding.Token.Quoted

/-!
Settings files. A settings file is a YAML document with a record of texts; what it leaves out keeps its default, and
what is no setting is ignored. Any scalar is taken as its text.
-/
namespace CommandBinding

open Data.Yaml (Node Mark Malformed)

inductive SettingsError where
  | malformed (error : Malformed)
  /-- A node of another kind than expected; `setting` is the one whose value it is, if it is any. -/
  | unsuitable (setting? : Option String) (found expected : String) (mark : Mark)
  /-- A setting that is given twice in the record at the mark. -/
  | repeated (setting : String) (mark : Mark)
deriving Repr

namespace SettingsError

/-- The text that shows a place, unless it is the start of the document. -/
def place (mark : Mark) : String :=
  if mark.isStart then "" else mark.text

def message : SettingsError → String
  | malformed error => error.message
  | unsuitable setting? found expected mark =>
    (match setting? with
      | some setting => setting ++ ": "
      | none => "") ++ "invalid type: " ++ found ++ ", expected " ++ expected ++ place mark
  | repeated setting mark => "duplicate field `" ++ setting ++ "`" ++ place mark

end SettingsError

namespace Settings

/-- The settings with one of them changed, if there is one of that name. -/
def set? (s : Settings) (setting text : String) : Option Settings :=
  match setting with
  | "flag_type" => some { s with flagType := text }
  | "meta_flag_type" => some { s with metaFlagType := text }
  | "variadic_type" => some { s with variadicType := text }
  | "chain_node_type" => some { s with chainNodeType := text }
  | "label_separator" => some { s with labelSeparator := text }
  | _ => none

def plainKind (text : String) : String :=
  if ["", "~", "null", "Null", "NULL"].contains text then "unit value"
  else if ["true", "True", "TRUE"].contains text then "boolean `true`"
  else if ["false", "False", "FALSE"].contains text then "boolean `false`"
  else if Data.Yaml.isAmbiguous text then
    (if text.any (fun c => c == '.' || c == 'e' || c == 'E') then "floating point `" else "integer `") ++ text ++ "`"
  else "string " ++ Quoted.written text

def nodeKind : Node → String
  | .scalar text isPlain _ => if isPlain then plainKind text else "string " ++ Quoted.written text
  | .list _ _ => "sequence"
  | .record _ _ => "map"

/-- Reads the fields of the record at `mark`; `given` are the settings in front. -/
def ofFields (mark : Mark) (s : Settings) (given : List String) : List (Node × Node) → Except SettingsError Settings
  | [] => .ok s
  | (.scalar setting _ _, value) :: rest =>
    match s.set? setting "", value with
    | none, _ => ofFields mark s given rest
    | some _, .scalar text _ _ =>
      if given.contains setting then .error (.repeated setting mark)
      else ofFields mark ((s.set? setting text).getD s) (setting :: given) rest
    | some _, value =>
      if given.contains setting then .error (.repeated setting mark)
      else .error (.unsuitable (some setting) (nodeKind value) "a string" value.mark)
  | (key, _) :: _ => .error (.unsuitable none (nodeKind key) "field identifier" key.mark)

def ofNode : Node → Except SettingsError Settings
  | .record fields mark => ofFields mark {} [] fields
  | .scalar "" true _ => .ok {}
  | node => .error (.unsuitable none (nodeKind node) "struct CompilerOptions" node.mark)

def ofText (text : String) : Except SettingsError Settings :=
  match Node.ofText? text with
  | .ok (some node) => ofNode node
  | .ok none => .ok {}
  | .error e => .error (.malformed e)

end Settings

end CommandBinding
