import CommandBinding.Files.Sources
import CommandBinding.Program

/-!
The checker as a process: it loads what the command line names, and what stands below, and leaves the rest to
`CommandLine.outcome`.
-/
namespace CommandBinding.Main

def reason (e : IO.Error) : FileError :=
  match e with
  | .noFileOrDirectory _ _ _ => .missing
  | .inappropriateType _ code _ => if code == 21 then .isADirectory else .notADirectory
  | e => .other (toString e)

def content (path : String) : IO (Except FileError String) := do
  match ← (IO.FS.readBinFile path).toBaseIO with
  | .ok bytes =>
    match String.fromUTF8? bytes with
    | some text => return .ok text
    | none => return .error .notText
  | .error e => return .error (reason e)

/-- What stands at a path and below it, without what the checker never looks at. -/
partial def load (path : String) : IO (List (String × Except FileError Entry)) := do
  if path = "" then return [(path, .error .missing)]
  let place := (← IO.currentDir) / path
  if ← place.isDir then
    let mut entries := []
    let mut loaded := []
    for inner in ← place.readDir do
      let name := inner.fileName
      let isSeen := if ← inner.path.isDir then !Entry.isSkippedName name else Entry.isSourceName name
      if isSeen then
        let below ← load (Path.join path name)
        loaded := loaded ++ below
        if let (_, .ok entry) :: _ := below then
          entries := (name, entry) :: entries
    return (path, .ok (.directory entries)) :: loaded
  else match ← content path with
    | .ok text => return [(path, .ok (.file (.ok text)))]
    | .error .missing => return [(path, .error .missing)]
    | .error .notADirectory => return [(path, .error .notADirectory)]
    | .error e => return [(path, .ok (.file (.error e)))]

end CommandBinding.Main

def main (arguments : List String) : IO UInt32 := do
  let commandLine := CommandBinding.CommandLine.ofArguments arguments
  let loaded ← commandLine.paths.mapM CommandBinding.Main.load
  let outcome := commandLine.outcome (.ofList loaded.flatten)
  IO.print outcome.output
  IO.eprint outcome.errors
  return outcome.exitStatus.toUInt32
