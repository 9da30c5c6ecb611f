import CommandBinding.Data.Yaml.Cursor
import CommandBinding.Unicode.Properties

/-!
Scalars of a YAML text: plain, quoted, and as a block of lines. Each reader starts at a cursor and gives the text of
the scalar and the cursor behind it. The bound on the number of steps is the length of the text that is left.
-/
namespace CommandBinding.Data.Yaml

abbrev ScalarReading := Except Malformed (List Char × Cursor)

/-- An error in a quoted scalar that began at `start`. -/
def quotedError {α : Type} (problem : String) (start : Mark) (c : Cursor) (isEscape : Bool) : Except Malformed α :=
  .error ⟨problem, c.mark, some (if isEscape then "while parsing a quoted scalar" else "while scanning a quoted scalar",
    start)⟩

/-- What blanks and line breaks inside quotes stand for, and the cursor behind them. -/
def quotedGap (isEscaped : Bool) (c : Cursor) : List Char × Cursor :=
  let (run, behind) := c.span isGapMark
  let breaks := run.filter isBreak
  (if isEscaped then breaks else if breaks.isEmpty then run else folded breaks, behind)

def escaped? (c : Char) : Option Char :=
  match c with
  | '\t' => some '\t'
  | ' ' => some ' '
  | '/' => some '/'
  | '\'' => some '\''
  | _ => (letterEscapes.find? (·.2 == c)).map fun (n, _) => Char.ofNat n

/-- The number of digits behind a letter that introduces a code point. -/
def escapeWidth? (c : Char) : Option Nat :=
  match c with
  | 'x' => some 2
  | 'u' => some 4
  | 'U' => some 8
  | _ => none

def hexValue? (cs : List Char) : Option Nat :=
  cs.foldl (fun value? c => do return 16 * (← value?) + (← Unicode.hexDigit? c)) (some 0)

/-- The character of an escape, whose backslash stands in front, and the cursor behind it. -/
def escape? (start : Mark) (c : Cursor) : Except Malformed (Char × Cursor) :=
  match c.ahead 1 with
  | none => quotedError "found unknown escape character" start c true
  | some letter =>
    match escaped? letter, escapeWidth? letter with
    | some value, _ => .ok (value, c.skip 2)
    | none, none => quotedError "found unknown escape character" start c true
    | none, some width =>
      let digits := (c.rest.drop 2).take width
      match hexValue? digits with
      | some n =>
        if digits.length != width then
          quotedError "did not find expected hexdecimal number" start (c.skip 2) true
        else if n.isValidChar then .ok (Char.ofNat n, c.skip (2 + width))
        else quotedError "found invalid Unicode character escape code" start (c.skip 2) true
      | none => quotedError "did not find expected hexdecimal number" start (c.skip 2) true

/-- Reads the inside of a quoted scalar; `text` is what was read of it, reversed. -/
def quotedFrom (isDouble : Bool) (start : Mark) : Nat → List Char → Cursor → ScalarReading
  | 0, _, c => quotedError "found unexpected end of stream" start c false
  | fuel + 1, text, c =>
    if c.atDocumentMark then quotedError "found unexpected document indicator" start c false
    else match c.rest with
      | [] => quotedError "found unexpected end of stream" start c false
      | first :: _ =>
        if isGapMark first then
          let (gap, behind) := quotedGap false c
          quotedFrom isDouble start fuel (gap.reverse ++ text) behind
        else if isDouble && first == '\\' then
          if (c.ahead 1).any isBreak then
            let (gap, behind) := quotedGap true (c.skip 2)
            quotedFrom isDouble start fuel (gap.reverse ++ text) behind
          else match escape? start c with
            | .ok (value, behind) => quotedFrom isDouble start fuel (value :: text) behind
            | .error e => .error e
        else if isDouble && first == '"' then .ok (text.reverse, c.skip 1)
        else if !isDouble && first == '\'' then
          if c.ahead 1 == some '\'' then quotedFrom isDouble start fuel ('\'' :: text) (c.skip 2)
          else .ok (text.reverse, c.skip 1)
        else quotedFrom isDouble start fuel (first :: text) (c.skip 1)

/-- Reads a quoted scalar, whose opening quote stands in front. -/
def quotedScalar (isDouble : Bool) (c : Cursor) : ScalarReading :=
  quotedFrom isDouble c.mark (c.rest.length + 1) [] (c.skip 1)

def bracketMarks : List Char := [',', '?', '[', ']', '\x7b', '\x7d']

def separatorMarks : List Char := [',', '[', ']', '\x7b', '\x7d']

/-- Reads characters of a plain scalar up to a blank or to what ends it. -/
def plainRun (inBrackets : Bool) (start : Mark) : Nat → List Char → Cursor → ScalarReading
  | 0, text, c => .ok (text, c)
  | fuel + 1, text, c =>
    match c.rest with
    | [] => .ok (text, c)
    | first :: _ =>
      if isGapMark first then .ok (text, c)
      else if inBrackets && first == ':' && (c.ahead 1).any bracketMarks.contains then
        .error ⟨"found unexpected ':'", c.mark, some ("while scanning a plain scalar", start)⟩
      else if (first == ':' && c.hasGapAt 1) || (inBrackets && separatorMarks.contains first) then .ok (text, c)
      else plainRun inBrackets start fuel (first :: text) (c.skip 1)

/-- Whether a tab stands in front of the column `level` behind a line break of a run. -/
def tabbedAt? (level : Nat) : Nat → Bool → Cursor → Option Mark
  | 0, _, _ => none
  | n + 1, isBehindBreak, c =>
    match c.rest with
    | first :: _ =>
      if isBehindBreak && first == '\t' && c.mark.column < level then some c.mark
      else tabbedAt? level n (isBehindBreak || isBreak first) (c.skip 1)
    | [] => none

def plainGap (run : List Char) : List Char :=
  let breaks := run.filter isBreak
  if breaks.isEmpty then run else folded breaks

/-- Reads a plain scalar whose lines are indented to the column `level`. The blanks in front of the cursor are `gap`
and count only if more follows them. The result also tells whether a line break stands behind the scalar. -/
def plainFrom (inBrackets : Bool) (level : Nat) (start : Mark) :
    Nat → List Char → List Char → Cursor → Except Malformed (List Char × Bool × Cursor)
  | 0, text, gap, c => .ok (text.reverse, gap.any isBreak, c)
  | fuel + 1, text, gap, c =>
    if c.atDocumentMark || c.starts "#" then .ok (text.reverse, gap.any isBreak, c)
    else match plainRun inBrackets start c.rest.length [] c with
      | .error e => .error e
      | .ok (run, behind) =>
        let (text, gap) := if run.isEmpty then (text, gap) else (run ++ (plainGap gap).reverse ++ text, [])
        match behind.rest with
        | first :: _ =>
          if !isGapMark first then .ok (text.reverse, gap.any isBreak, behind)
          else
            let (run, next) := behind.span isGapMark
            match tabbedAt? level run.length false behind with
            | some mark =>
              .error ⟨"found a tab character that violates indentation", mark, some ("while scanning a plain scalar", start)⟩
            | none =>
              if !inBrackets && next.mark.column < level then .ok (text.reverse, run.any isBreak, next)
              else plainFrom inBrackets level start fuel text run next
        | [] => .ok (text.reverse, gap.any isBreak, behind)

def plainScalar (inBrackets : Bool) (level : Nat) (c : Cursor) : Except Malformed (List Char × Bool × Cursor) :=
  plainFrom inBrackets level c.mark (c.rest.length + 1) [] [] c

inductive Chomping where
  | strip
  | clip
  | keep
deriving DecidableEq, Repr

/-- The header of a block: its chomping and the indentation it states. -/
structure BlockHeader where
  chomping : Chomping := .clip
  indentation? : Option Nat := none

def chomping? (c : Char) : Option Chomping :=
  if c == '+' then some .keep else if c == '-' then some .strip else none

/-- An error in a block that began at `start`. -/
def blockError {α : Type} (problem : String) (start : Mark) (c : Cursor) : Except Malformed α :=
  .error ⟨problem, c.mark, some ("while scanning a block scalar", start)⟩

/-- Reads the chomping mark and the indentation, each of which may be missing, in any order. -/
def blockHeader (start : Mark) : Nat → BlockHeader → Cursor → Except Malformed (BlockHeader × Cursor)
  | 0, header, c => .ok (header, c)
  | fuel + 1, header, c =>
    match c.rest with
    | [] => .ok (header, c)
    | first :: _ =>
      match chomping? first, header.chomping, header.indentation? with
      | some chomping, .clip, _ => blockHeader start fuel { header with chomping } (c.skip 1)
      | none, _, none =>
        if first == '0' then blockError "found an indentation indicator equal to 0" start c
        else if first.isDigit then
          blockHeader start fuel { header with indentation? := some (first.toNat - 48) } (c.skip 1)
        else .ok (header, c)
      | _, _, _ => .ok (header, c)

/-- Reads the empty lines in front, and the indentation of the line behind them up to `level`. Without a level, all
spaces count; the result holds the widest indentation, the line breaks and the cursor. -/
def emptyLines (start : Mark) (level? : Option Nat) : Nat → Nat → List Char → Cursor →
    Except Malformed (Nat × List Char × Cursor)
  | 0, widest, breaks, c => .ok (widest, breaks, c)
  | fuel + 1, widest, breaks, c =>
    let spaces := (c.rest.takeWhile (· == ' ')).length
    let c := c.skip (match level? with | some level => min spaces (level - c.mark.column) | none => spaces)
    let widest := max widest c.mark.column
    match c.rest with
    | first :: _ =>
      if first == '\t' && level?.all (c.mark.column < ·) then
        blockError "found a tab character where an indentation space is expected" start c
      else if isBreak first then emptyLines start level? fuel widest (breaks ++ [first]) (c.skip 1)
      else .ok (widest, breaks, c)
    | [] => .ok (widest, breaks, c)

/-- What the line break `lineBreak` and the empty lines behind it stand for between two lines of a block. -/
def blockBreaks (isFolded wasBlank isBlank : Bool) (lineBreak breaks : List Char) : List Char :=
  if isFolded && lineBreak == ['\n'] && !wasBlank && !isBlank then
    (if breaks.isEmpty then [' '] else breaks)
  else lineBreak ++ breaks

/-- Reads the lines of a block; `lineBreak` ends the last line that was read, and empty lines with the line breaks
`breaks` stand behind it. -/
def blockFrom (isFolded : Bool) (chomping : Chomping) (start : Mark) (level : Nat) :
    Nat → List Char → Bool → List Char → List Char → Cursor → ScalarReading
  | 0, text, _, _, _, c => .ok (text.reverse, c)
  | fuel + 1, text, wasBlank, lineBreak, breaks, c =>
    match c.rest with
    | first :: _ =>
      if c.mark.column == level then
        let isBlank := isBlankMark first
        let between := blockBreaks isFolded wasBlank isBlank lineBreak breaks
        let (line, behind) := c.span (!isBreak ·)
        let lineBreak := behind.rest.take 1
        match emptyLines start (some level) (behind.rest.length + 1) 0 [] (behind.skip 1) with
        | .error e => .error e
        | .ok (_, breaks, next) =>
          blockFrom isFolded chomping start level fuel (line.reverse ++ between.reverse ++ text) isBlank lineBreak
            breaks next
      else .ok (finished text lineBreak breaks, c)
    | [] => .ok (finished text lineBreak breaks, c)
where
  /-- The text with the line breaks at its end that belong to it. -/
  finished (text lineBreak breaks : List Char) : List Char :=
    text.reverse ++ (if chomping = .strip then [] else lineBreak) ++ (if chomping = .keep then breaks else [])

/-- Reads a scalar as a block, whose mark stands in front, inside a block at the column `outer - 1`. -/
def blockScalar (isFolded : Bool) (outer : Nat) (c : Cursor) : ScalarReading := do
  let start := c.mark
  let (header, c) ← blockHeader start 2 {} (c.skip 1)
  let (_, c) := c.span isBlankMark
  let c := if c.starts "#" then (c.span (!isBreak ·)).2 else c
  if !c.rest.isEmpty && !c.rest.head?.any isBreak then
    blockError "did not find expected comment or line break" start c
  else
    let c := c.skip 1
    let level? := header.indentation?.map (· + (outer - 1))
    let (widest, breaks, c) ← emptyLines start level? (c.rest.length + 1) 0 [] c
    let level := level?.getD (max widest (max outer 1))
    blockFrom isFolded header.chomping start level (c.rest.length + 1) [] false [] breaks c

end CommandBinding.Data.Yaml
