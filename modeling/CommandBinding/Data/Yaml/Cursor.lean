import CommandBinding.Data.Yaml

/-!
Places in a YAML text, and what can be wrong there. Lines and columns are shown counted from one.
-/
namespace CommandBinding.Data.Yaml

/-- A place in a text, counted from zero. -/
structure Mark where
  index : Nat
  line : Nat
  column : Nat
deriving DecidableEq, Repr, Inhabited

namespace Mark

def start : Mark := ⟨0, 0, 0⟩

def behind (m : Mark) (c : Char) : Mark :=
  if isBreak c then ⟨m.index + 1, m.line + 1, 0⟩ else ⟨m.index + 1, m.line, m.column + 1⟩

/-- Whether a place is the start of the text, which is not shown. -/
def isStart (m : Mark) : Bool :=
  m.line == 0 && m.column == 0

def text (m : Mark) : String :=
  " at line " ++ toString (m.line + 1) ++ " column " ++ toString (m.column + 1)

end Mark

/-- Why a text is no document, and where that was found. -/
structure Malformed where
  problem : String
  mark : Mark
  /-- What was being read, and where it began. -/
  context? : Option (String × Mark) := none
deriving DecidableEq, Repr

namespace Malformed

def message (e : Malformed) : String :=
  e.problem ++ (if e.mark.isStart then (if e.mark.index = 0 then "" else " at position " ++ toString e.mark.index)
    else e.mark.text) ++
  match e.context? with
  | some (context, mark) =>
    ", " ++ context ++
      (if mark.isStart || (mark.line = e.mark.line && mark.column = e.mark.column) then "" else mark.text)
  | none => ""

end Malformed

/-- The text that is still to be read, and its place. -/
structure Cursor where
  rest : List Char
  mark : Mark
deriving Repr

namespace Cursor

/-- The cursor behind the next `n` characters. -/
def skip : Nat → Cursor → Cursor
  | 0, c => c
  | n + 1, c =>
    match c.rest with
    | [] => c
    | first :: rest => skip n ⟨rest, c.mark.behind first⟩

/-- The characters in front that satisfy a test, and the cursor behind them. -/
def span (c : Cursor) (test : Char → Bool) : List Char × Cursor :=
  let run := c.rest.takeWhile test
  (run, c.skip run.length)

def starts (c : Cursor) (text : String) : Bool :=
  text.toList.isPrefixOf c.rest

/-- The character `n` places ahead. -/
def ahead (c : Cursor) (n : Nat) : Option Char :=
  (c.rest.drop n).head?

/-- Whether a space, a tab, a line break or the end of the text is `n` places ahead. -/
def hasGapAt (c : Cursor) (n : Nat) : Bool :=
  isGap (c.ahead n)

def atDocumentMark (c : Cursor) : Bool :=
  c.mark.column == 0 && (c.starts "---" || c.starts "...") && c.hasGapAt 3

end Cursor

def isBlankMark (c : Char) : Bool :=
  c == ' ' || c == '\t'

/-- A space, a tab or a line break. -/
def isGapMark (c : Char) : Bool :=
  isBlankMark c || isBreak c

/-- What a run of line breaks stands for where lines are joined: one break is a space, and of several the first is
dropped. -/
def folded (breaks : List Char) : List Char :=
  match breaks with
  | ['\n'] => [' ']
  | '\n' :: more => more
  | _ => breaks

/-- The text with one kind of line break, and without the mark of its byte order. -/
def normalized (cs : List Char) : List Char :=
  match cs with
  | '\uFEFF' :: rest => breaks rest
  | _ => breaks cs
where
  /-- The text with one kind of line break. -/
  breaks : List Char → List Char
    | [] => []
    | '\r' :: '\n' :: rest => '\n' :: breaks rest
    | c :: rest => (if c == '\r' || c.toNat == 0x85 then '\n' else c) :: breaks rest

def isAllowed (c : Char) : Bool :=
  let n := c.toNat
  n == 9 || n == 10 || n == 13 || (0x20 ≤ n && n ≤ 0x7e) || n == 0x85 || (0xa0 ≤ n && n < 0xfffe) || 0x10000 ≤ n

end CommandBinding.Data.Yaml
