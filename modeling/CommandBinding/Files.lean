/-!
File trees. A file system says what stands at each path; `FileSystem.ofTree` is the one in which paths start from a
given directory. The empty path names nothing, and so does a path that leaves the directory.
-/
namespace CommandBinding

inductive FileError where
  | missing
  | notADirectory
  | isADirectory
  /-- The bytes are not UTF-8. -/
  | notText
  /-- Any other reason in the words of the system. -/
  | other (reason : String)
deriving DecidableEq, Repr

namespace FileError

def message : FileError → String
  | missing => "No such file or directory (os error 2)"
  | notADirectory => "Not a directory (os error 20)"
  | isADirectory => "Is a directory (os error 21)"
  | notText => "stream did not contain valid UTF-8"
  | other reason => reason

end FileError

inductive Entry where
  /-- A file with its text, or the reason why it cannot be read. -/
  | file (content : Except FileError String)
  /-- A directory with the names and entries in it, in the order in which they are listed. -/
  | directory (entries : List (String × Entry))
deriving Inhabited

structure FileSystem where
  lookUp : String → Except FileError Entry

namespace FileSystem

def read (files : FileSystem) (path : String) : Except FileError String := do
  match ← files.lookUp path with
  | .file content => content
  | .directory _ => throw .isADirectory

end FileSystem

namespace Entry

def pieces (path : String) : List String :=
  (piecesFrom [] path.toList).map String.ofList
where
  /-- The pieces of a text; `piece` holds, reversed, the piece that is being read. -/
  piecesFrom (piece : List Char) : List Char → List (List Char)
    | [] => [piece.reverse]
    | c :: rest => if c == '/' then piece.reverse :: piecesFrom [] rest else piecesFrom (c :: piece) rest

/-- Follows pieces of a path from an entry; `above` are the directories above it, from the nearest on. -/
def follow (above : List Entry) (entry : Entry) : List String → Except FileError Entry
  | [] => .ok entry
  | piece :: rest =>
    match entry with
    | file _ => .error .notADirectory
    | directory entries =>
      if piece = "" || piece = "." then follow above entry rest
      else if piece = ".." then
        match above with
        | parent :: above => follow above parent rest
        | [] => .error .missing
      else match entries.find? (·.1 == piece) with
        | some (_, inner) => follow (entry :: above) inner rest
        | none => .error .missing

def at? (root : Entry) (path : String) : Except FileError Entry :=
  if path = "" || path.startsWith "/" then .error .missing else root.follow [] (pieces path)

mutual

/-- Puts an entry where the pieces of a path lead, and makes the directories on the way. What stood there before is
replaced, unless both are directories. -/
def put (new : Entry) : List String → Entry → Entry
  | [], old =>
    match new, old with
    | directory [], directory entries => directory entries
    | _, _ => new
  | piece :: rest, directory entries =>
    if piece = "" || piece = "." then put new rest (directory entries)
    else directory (putAmong new piece rest entries)
  | _ :: _, file content => file content

/-- Puts an entry below the entry of that name, which is added if it is missing. -/
def putAmong (new : Entry) (piece : String) (rest : List String) : List (String × Entry) → List (String × Entry)
  | [] => [(piece, put new rest (directory []))]
  | (name, entry) :: more =>
    if name = piece then (name, put new rest entry) :: more
    else (name, entry) :: putAmong new piece rest more

end

def ofPaths (entries : List (String × Entry)) : Entry :=
  entries.foldl (fun root (path, entry) => put entry (pieces path) root) (directory [])

end Entry

namespace FileSystem

def ofList (entries : List (String × Except FileError Entry)) : FileSystem :=
  ⟨fun path => ((entries.find? (·.1 == path)).map (·.2)).getD (.error .missing)⟩

def ofTree (root : Entry) : FileSystem :=
  ⟨root.at?⟩

end FileSystem

end CommandBinding
