import CommandBinding.Files.Sources
import CommandBinding.Report.Format
import CommandBinding.SettingsFile

/-!
The checker: it reads settings and source files from a file system and reports on all directives. A survey of several
files goes on when one of them cannot be read, and passes only if every file is read and no report has a finding.
-/
namespace CommandBinding

open Source (ParseError)

inductive CheckError where
  | unreadable (error : FileError)
  /-- The file at the path is no source. -/
  | unparsable (path : String) (error : ParseError)
  | noSettings (error : SettingsError)
  | badInput (error : InputError)
deriving Repr

namespace CheckError

def message : CheckError → String
  | unreadable error => "IO error: " ++ error.message
  | unparsable path error => "failed to parse '" ++ path ++ "': " ++ error.message
  | noSettings error => "invalid options file: " ++ error.message
  | badInput error => error.message

end CheckError

namespace FileSystem

/-- The settings in the file at a path, or the default ones. -/
def settings (files : FileSystem) : Option String → Except CheckError Settings
  | none => .ok {}
  | some path =>
    match files.read path with
    | .error e => .error (.unreadable e)
    | .ok text => (Settings.ofText text).mapError .noSettings

def reports (files : FileSystem) (settings : Settings) (path : String) : Except CheckError (List Report) :=
  match files.read path with
  | .error e => .error (.unreadable e)
  | .ok text => (Report.ofSource text settings).mapError (.unparsable path)

end FileSystem

structure FileCheck where
  path : String
  result : Except CheckError (List Report)

namespace FileCheck

def reports (f : FileCheck) : List Report :=
  f.result.toOption.getD []

def errors (f : FileCheck) : List CheckError :=
  match f.result with
  | .ok _ => []
  | .error e => [e]

def lines (f : FileCheck) : List String :=
  f.reports.flatMap (Report.lines f.path)

end FileCheck

/-- What the checker gives for several files, in the order of their paths. -/
structure Survey where
  files : List FileCheck

namespace Survey

def ofPaths (files : FileSystem) (settings : Settings) (paths : List String) : Survey :=
  ⟨paths.map fun path => ⟨path, files.reports settings path⟩⟩

def lines (s : Survey) : List String :=
  s.files.flatMap FileCheck.lines

def errors (s : Survey) : List CheckError :=
  s.files.flatMap FileCheck.errors

def reportCount (s : Survey) : Nat :=
  s.files.foldr (fun file count => file.reports.length + count) 0

def passes (s : Survey) : Bool :=
  s.lines.isEmpty && s.errors.isEmpty

def summary (s : Survey) : String :=
  "Checked " ++ toString s.reportCount ++ " work function(s) in " ++ toString s.files.length ++ " file(s): " ++
    toString s.lines.length ++ " diagnostic(s)"

def problems (s : Survey) : List String :=
  (if s.lines.isEmpty then [] else [toString s.lines.length ++ " diagnostic(s)"]) ++
    (if s.errors.isEmpty then [] else [toString s.errors.length ++ " unreadable file(s)"])

end Survey

end CommandBinding
