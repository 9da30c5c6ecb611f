import CommandBinding.Files.Path

/-!
The source files of a command line. A file is taken as it is named; a directory stands for all source files below it,
except those below a directory that is hidden or holds what was built.
-/
namespace CommandBinding

inductive InputError where
  | noInputs
  /-- A file that is no source file. -/
  | notASource (path : String)
  | missing (path : String)
deriving DecidableEq, Repr

namespace InputError

def message : InputError → String
  | noInputs => "No source paths were provided"
  | notASource path => "Source file '" ++ path ++ "' must end in .rs"
  | missing path => "Source path '" ++ path ++ "' does not exist"

end InputError

namespace Entry

def isSourceName (name : String) : Bool :=
  Path.extension? name == some "rs"

def isSkippedName (name : String) : Bool :=
  name.startsWith "." || name == "target"

mutual

/-- The source files among the entries of the directory at `path`. -/
def sourcesAmong (path : String) : List (String × Entry) → List String
  | [] => []
  | (name, entry) :: rest => sourcesAt (Path.join path name) name entry ++ sourcesAmong path rest

/-- The source files that the entry of that name at `path` stands for. -/
def sourcesAt (path name : String) : Entry → List String
  | directory entries => if isSkippedName name then [] else sourcesAmong path entries
  | file _ => if isSourceName name then [path] else []

end

end Entry

namespace FileSystem

def sourcesOf (files : FileSystem) (input : String) : Except InputError (List String) :=
  match files.lookUp input with
  | .ok (.directory entries) => .ok (Entry.sourcesAmong input entries)
  | .ok (.file _) => if Entry.isSourceName (Path.lastName input) then .ok [input] else .error (.notASource input)
  | .error _ => .error (.missing input)

/-- The source files that all inputs stand for, in ascending order. -/
def sources (files : FileSystem) (inputs : List String) : Except InputError (List String) := do
  if inputs.isEmpty then throw .noInputs
  let found ← inputs.mapM files.sourcesOf
  return found.flatten.foldl (fun paths path => Path.insert path paths) []

end FileSystem

end CommandBinding
