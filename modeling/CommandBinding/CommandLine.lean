import CommandBinding.Report.Format

/-!
The command line of the checker. It has the commands `check`, which surveys files, and `inspect`, which shows the
reports on one file; both take the path of a settings file.
-/
namespace CommandBinding

inductive Task where
  | check (inputs : List String)
  | inspect (input : String) (function? : Option String) (format : ReportFormat)
deriving DecidableEq, Repr

inductive CommandLine where
  | run (settingsPath? : Option String) (task : Task)
  /-- A text is asked for, such as a help text. -/
  | tell (text : String)
  | misused
deriving DecidableEq, Repr

namespace CommandLine

def versionText : String :=
  "cmdbind-check 0.1.0\n"

/-- The line of a help text about the settings file; `width` is that of the first column. -/
def configHelp (width : Nat) : String :=
  Report.Table.padded width "      --config <CONFIG>" ++
    "YAML file with compiler options (reserved type names, label separator)\n"

def helpHelp (width : Nat) : String :=
  Report.Table.padded width "  -h, --help" ++ "Print help\n"

def helpText : String :=
  "Offline checker for command-line work functions\n\n" ++
  "Usage: cmdbind-check [OPTIONS] <COMMAND>\n\n" ++
  "Commands:\n" ++
  "  check    Check every annotated work function in the given files or directories\n" ++
  "  inspect  Print the compiled bindings of one source file\n" ++
  "  help     Print this message or the help of the given subcommand(s)\n\n" ++
  "Options:\n" ++ configHelp 25 ++ helpHelp 25 ++ "  -V, --version          Print version\n"

/-- The help text of the command `check`. -/
def checkHelpText : String :=
  "Check every annotated work function in the given files or directories\n\n" ++
  "Usage: cmdbind-check check [OPTIONS] <INPUTS>...\n\n" ++
  "Arguments:\n" ++
  "  <INPUTS>...  Rust source files or directories (searched recursively for *.rs)\n\n" ++
  "Options:\n" ++ configHelp 25 ++
  "      --jobs <JOBS>      Number of parallel workers (0 uses one per CPU) [default: 0]\n" ++ helpHelp 25

/-- The help text of the command `inspect`. -/
def inspectHelpText : String :=
  "Print the compiled bindings of one source file\n\n" ++
  "Usage: cmdbind-check inspect [OPTIONS] --input <INPUT>\n\n" ++
  "Options:\n" ++ configHelp 29 ++
  "      --input <INPUT>        Rust source file\n" ++
  "      --function <FUNCTION>  Only show the work function with this name\n" ++
  "      --format <FORMAT>      Output format [default: json] [possible values: json, yaml, table]\n" ++ helpHelp 29

/-- The help text of the command `help`. -/
def helpHelpText : String :=
  "Print this message or the help of the given subcommand(s)\n\n" ++
  "Usage: cmdbind-check help [COMMAND]...\n\n" ++
  "Arguments:\n" ++
  "  [COMMAND]...  Print help for the subcommand(s)\n"

inductive Setting where
  | config
  | jobs
  | input
  | function
  | format
deriving DecidableEq, Repr

namespace Setting

def name : Setting → String
  | config => "config"
  | jobs => "jobs"
  | input => "input"
  | function => "function"
  | format => "format"

/-- Whether a text is a number of workers: digits, in front of which a plus sign may stand, of less than 2 ^ 64. -/
def isJobCount (text : String) : Bool :=
  let digits := match text.toList with
    | '+' :: rest => rest
    | cs => cs
  !digits.isEmpty && digits.all Char.isDigit && digits.foldl (fun n c => 10 * n + (c.toNat - 48)) 0 < Nat.pow 2 64

/-- Whether an option takes a value. Paths are not empty. -/
def accepts (s : Setting) (value : String) : Bool :=
  match s with
  | config | input => value != ""
  | jobs => isJobCount value
  | function => true
  | format => (ReportFormat.ofName? value).isSome

end Setting

structure Given where
  settings : List (Setting × String) := []
  words : List String := []

namespace Given

def value? (g : Given) (s : Setting) : Option String :=
  (g.settings.find? (·.1 = s)).map (·.2)

/-- What is given with one more option, which must not be given twice. -/
def withSetting? (g : Given) (s : Setting) (value : String) : Option Given :=
  if s.accepts value && (g.value? s).isNone then some { g with settings := (s, value) :: g.settings } else none

end Given

structure Allowed where
  settings : List Setting
  /-- The text that `-h` asks for. -/
  help : String
  /-- The text that `-V` asks for, if it may. -/
  version? : Option String
  /-- Whether the first word ends the part. -/
  endsAtWord : Bool

/-- Where reading a part of a command line ends: at the end or at a word, with what stands from there on; at a question;
or at a mistake. -/
inductive Stop where
  | done (given : Given) (rest : List String)
  | told (text : String)
  | mistaken

def isOption (argument : String) : Bool :=
  argument.startsWith "-" && argument != "-"

/-- The name and the value of an option that is written as one argument. -/
def splitOption (argument : String) : String × Option String :=
  match cutAtFirst ['='] (argument.toList.drop 2) with
  | some (name, value) => (String.ofList name, some (String.ofList value))
  | none => (String.ofList (argument.toList.drop 2), none)

/-- What an argument does to the reading of a part of a command line. -/
inductive Step where
  /-- Reading goes on; the next argument is the value of `awaited?`, if that is an option. -/
  | next (given : Given) (awaited? : Option Setting)
  /-- All arguments from the next one on are words. -/
  | words
  /-- The argument is a word that ends the part. -/
  | atWord
  | told (text : String)
  | mistaken

def nextIf : Option Given → Step
  | some g => .next g none
  | none => .mistaken

def longOption (allowed : Allowed) (g : Given) (argument : String) : Step :=
  let (name, value?) := splitOption argument
  match allowed.settings.find? (·.name == name), value? with
  | some s, some value => nextIf (g.withSetting? s value)
  | some s, none => .next g (some s)
  | none, some _ => .mistaken
  | none, none =>
    match name, allowed.version? with
    | "help", _ => .told allowed.help
    | "version", some version => .told version
    | _, _ => .mistaken

/-- Reads an option that is written as letters, of which the first one decides. -/
def shortOption (allowed : Allowed) (argument : String) : Step :=
  match argument.toList.drop 1, allowed.version? with
  | 'h' :: _, _ => .told allowed.help
  | 'V' :: _, some version => .told version
  | _, _ => .mistaken

def step (allowed : Allowed) (g : Given) (awaited? : Option Setting) (argument : String) : Step :=
  match awaited?, isOption argument with
  | some _, true => .mistaken
  | some s, false => nextIf (g.withSetting? s argument)
  | none, true =>
    if argument = "--" then .words
    else if argument.startsWith "--" then longOption allowed g argument
    else shortOption allowed argument
  | none, false =>
    if allowed.endsAtWord then .atWord
    else if argument = "" then .mistaken
    else .next { g with words := g.words ++ [argument] } none

def read (allowed : Allowed) (g : Given) (awaited? : Option Setting) : List String → Stop
  | [] => if awaited?.isSome then .mistaken else .done g []
  | argument :: rest =>
    match step allowed g awaited? argument with
    | .next g awaited? => read allowed g awaited? rest
    | .words =>
      if allowed.endsAtWord || rest.contains "" then .mistaken else .done { g with words := g.words ++ rest } []
    | .atWord => .done g (argument :: rest)
    | .told text => .told text
    | .mistaken => .mistaken

/-- The path of the settings file: a command's own option counts before the one in front of it. -/
def settingsPath? (outer inner : Given) : Option String :=
  (inner.value? .config).or (outer.value? .config)

/-- Reads what stands behind the command `check`. -/
def ofCheck (outer : Given) (arguments : List String) : CommandLine :=
  match read ⟨[.config, .jobs], checkHelpText, none, false⟩ {} none arguments with
  | .done g _ => if g.words.isEmpty then .misused else .run (settingsPath? outer g) (.check g.words)
  | .told text => .tell text
  | .mistaken => .misused

/-- Reads what stands behind the command `inspect`. -/
def ofInspect (outer : Given) (arguments : List String) : CommandLine :=
  match read ⟨[.config, .input, .function, .format], inspectHelpText, none, false⟩ {} none arguments with
  | .done g _ =>
    let format := ((g.value? .format).bind ReportFormat.ofName?).getD .json
    match g.words, g.value? .input with
    | [], some input => .run (settingsPath? outer g) (.inspect input (g.value? .function) format)
    | _, _ => .misused
  | .told text => .tell text
  | .mistaken => .misused

/-- Reads what stands behind the command `help`. -/
def ofHelp : List String → CommandLine
  | [] => .tell helpText
  | ["check"] => .tell checkHelpText
  | ["inspect"] => .tell inspectHelpText
  | ["help"] => .tell helpHelpText
  | _ => .misused

def ofArguments (arguments : List String) : CommandLine :=
  match read ⟨[.config], helpText, some versionText, true⟩ {} none arguments with
  | .done outer ("check" :: rest) => ofCheck outer rest
  | .done outer ("inspect" :: rest) => ofInspect outer rest
  | .done _ ("help" :: rest) => ofHelp rest
  | .done _ _ => .misused
  | .told text => .tell text
  | .mistaken => .misused

def paths : CommandLine → List String
  | run settingsPath? (.check inputs) => settingsPath?.toList ++ inputs
  | run settingsPath? (.inspect input _ _) => settingsPath?.toList ++ [input]
  | tell _ | misused => []

end CommandLine

end CommandBinding
