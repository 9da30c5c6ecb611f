import CommandBinding.Checker
import CommandBinding.CommandLine

/-!
The checker as a program: from a command line and a file system to what is printed and the exit status. The status
is 1 if what was asked for fails or a finding is reported, and 2 for a command line that makes no sense.
-/
namespace CommandBinding

structure Outcome where
  exitStatus : Nat
  output : String
  errors : String
deriving DecidableEq, Repr

namespace Outcome

def printed (lines : List String) : String :=
  String.join (lines.map (· ++ "\n"))

def errorLine (message : String) : String :=
  "error: " ++ message

/-- A run that prints lines and then fails with a message, if there is one. -/
def ended (output errors : List String) (failure? : Option String) : Outcome :=
  match failure? with
  | none => ⟨0, printed output, printed errors⟩
  | some message => ⟨1, printed output, printed (errors ++ [errorLine message])⟩

end Outcome

namespace Survey

def outcome (s : Survey) : Outcome :=
  Outcome.ended (s.lines ++ [s.summary]) (s.errors.map fun e => Outcome.errorLine e.message)
    (if s.passes then none else some ("check failed: " ++ ", ".intercalate s.problems))

end Survey

namespace Task

def inspectOutcome (path : String) (function? : Option String) (format : ReportFormat) (reports : List Report) :
    Outcome :=
  let shown := reports.filter fun r => function?.all (r.function == ·)
  match function?, shown with
  | some name, [] =>
    Outcome.ended [] [] (some ("No annotated function named '" ++ name ++ "' in '" ++ path ++ "'"))
  | _, _ =>
    let failed := (shown.filter (!·.findings.isEmpty)).length
    Outcome.ended [Report.format path shown format] []
      (if failed = 0 then none else some (toString failed ++ " work function(s) failed to compile"))

def run (files : FileSystem) (settings : Settings) : Task → Except CheckError Outcome
  | check inputs => do
    let paths ← (files.sources inputs).mapError .badInput
    return (Survey.ofPaths files settings paths).outcome
  | inspect input function? format => do
    return inspectOutcome input function? format (← files.reports settings input)

end Task

def CommandLine.outcome (files : FileSystem) : CommandLine → Outcome
  | .tell text => ⟨0, text, ""⟩
  | .misused => ⟨2, "", helpText⟩
  | .run settingsPath? task =>
    let outcome := do task.run files (← files.settings settingsPath?)
    match outcome with
    | .ok outcome => outcome
    | .error e => .ended [] [] (some e.message)

end CommandBinding
