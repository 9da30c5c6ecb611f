import CommandBinding.Files

/-!
Paths. Two paths are equal if their parts are, and paths are ordered by their parts, so what stands in a directory
comes before a file beside it whose name only begins like the directory's.
-/
namespace CommandBinding.Path

inductive Part where
  | root
  /-- The directory `.` at the start of a path; anywhere else it is left out. -/
  | here
  /-- The directory `..`. -/
  | parent
  | name (text : String)
deriving DecidableEq, Repr

namespace Part

def rank : Part → Nat
  | root => 0
  | here => 1
  | parent => 2
  | name _ => 3

def text : Part → String
  | name text => text
  | _ => ""

def before (p q : Part) : Bool :=
  p.rank < q.rank || (p.rank == q.rank && p.text < q.text)

/-- The part that a piece of a path is, if it is any. -/
def ofPiece? (piece : String) : Option Part :=
  if piece = "" || piece = "." then none
  else if piece = ".." then some parent
  else some (name piece)

end Part

def parts (path : String) : List Part :=
  let pieces := Entry.pieces path
  let start : List Part :=
    match pieces with
    | "" :: _ :: _ => [.root]
    | "." :: _ => [.here]
    | _ => []
  start ++ pieces.filterMap Part.ofPiece?

def partsBefore : List Part → List Part → Bool
  | _, [] => false
  | [], _ :: _ => true
  | p :: ps, q :: qs => p.before q || (p == q && partsBefore ps qs)

def before (p q : String) : Bool :=
  partsBefore (parts p) (parts q)

def join (directory name : String) : String :=
  if directory.endsWith "/" then directory ++ name else directory ++ "/" ++ name

/-- What stands behind the last dot of a name. A dot at the start of a name does not count. -/
def extension? (name : String) : Option String :=
  let reversed := name.toList.reverse
  let behind := reversed.takeWhile (· != '.')
  match reversed.drop behind.length with
  | [] | [_] => none
  | _ :: _ => some (String.ofList behind.reverse)

def lastName (path : String) : String :=
  match (parts path).getLast? with
  | some (.name text) => text
  | _ => ""

/-- Puts a path into an ascending list. A path that is equal to one in it is left out. -/
def insert (path : String) : List String → List String
  | [] => [path]
  | first :: rest =>
    if before path first then path :: first :: rest
    else if before first path then first :: insert path rest
    else first :: rest

end CommandBinding.Path
