import CommandBinding.Data.Yaml.Scalar

/-!
Symbols of a YAML text: the marks and scalars of which it is made, and the starts and ends of blocks, which follow
from the indentation. That a scalar is a key is known only at the colon behind it, so the symbols of a key are put
in front of it then.
-/
namespace CommandBinding.Data.Yaml

inductive Symbol where
  /-- The version of the language that a document states. -/
  | version
  /-- A short name for a set of tags. -/
  | tagHandle (handle : String)
  | documentStart
  | documentEnd
  | listBlock
  | recordBlock
  | blockEnd
  | listOpen
  | listClose
  | recordOpen
  | recordClose
  /-- The dash in front of an item of a block. -/
  | entry
  /-- The comma between items in brackets. -/
  | comma
  | key
  | value
  | anchor (name : String)
  /-- A name that stands for the node with that anchor. -/
  | reference (name : String)
  | tag (handle : String)
  | scalar (text : String) (isPlain : Bool)
  | streamEnd
deriving DecidableEq, Repr

structure PlacedSymbol where
  symbol : Symbol
  mark : Mark
deriving Repr

structure PossibleKey where
  /-- Whether nothing but a key may stand there. -/
  isRequired : Bool
  /-- The number of symbols in front. -/
  position : Nat
  mark : Mark
deriving Repr

/-- What has been read of a text, and what is still to be read. A block at a column has the level one above it. -/
structure Scan where
  cursor : Cursor
  /-- The symbols that were read, the last one first. -/
  reversed : List PlacedSymbol := []
  /-- The level of the block that is being read, and those of the blocks around it. -/
  level : Nat := 0
  outerLevels : List Nat := []
  /-- The possible key in each bracket that is open, and in the block. -/
  possibleKey : Option PossibleKey := none
  outerKeys : List (Option PossibleKey) := []
  /-- Whether a key may begin here. -/
  allowsKey : Bool := true

abbrev Scanner := StateT Scan (Except Malformed)

namespace Scanner

def fail {α : Type} (problem : String) (context? : Option (String × Mark)) : Scanner α := do
  throw ⟨problem, (← get).cursor.mark, context?⟩

def inBrackets : Scanner Bool := do
  return !(← get).outerKeys.isEmpty

/-- Adds a symbol that begins at `mark`. -/
def add (symbol : Symbol) (mark : Mark) : Scanner Unit :=
  modify fun s => { s with reversed := ⟨symbol, mark⟩ :: s.reversed }

/-- Puts symbols behind the first `position` ones. -/
def insert (position : Nat) (symbols : List PlacedSymbol) : Scanner Unit :=
  modify fun s =>
    let (behind, front) := s.reversed.splitAt (s.reversed.length - position)
    { s with reversed := behind ++ symbols.reverse ++ front }

/-- Moves on over `n` characters. -/
def skip (n : Nat) : Scanner Unit :=
  modify fun s => { s with cursor := s.cursor.skip n }

def allowKey (allowsKey : Bool) : Scanner Unit :=
  modify fun s => { s with allowsKey }

/-- Ends the blocks whose level is above `level`. -/
def unwind (level : Nat) : Scanner Unit :=
  modify fun s =>
    let ended := (s.level :: s.outerLevels).takeWhile (level < ·)
    let ends := ended.map fun _ => (⟨.blockEnd, s.cursor.mark⟩ : PlacedSymbol)
    match (s.level :: s.outerLevels).dropWhile (level < ·) with
    | level :: outerLevels => { s with reversed := ends ++ s.reversed, level, outerLevels }
    | [] => { s with reversed := ends ++ s.reversed, level := 0, outerLevels := [] }

/-- The start of a block at the column of `mark`, if it is further in than the block around it. -/
def wind (block : Symbol) (mark : Mark) : Scanner (List PlacedSymbol) := do
  let s ← get
  if (← inBrackets) || mark.column < s.level then return []
  else
    set { s with level := mark.column + 1, outerLevels := s.level :: s.outerLevels }
    return [⟨block, mark⟩]

/-- Gives up the possible key, unless nothing but a key may stand there. -/
def dropKey : Scanner Unit := do
  match (← get).possibleKey with
  | some k =>
    if k.isRequired then fail "could not find expected ':'" (some ("while scanning a simple key", k.mark))
    else modify fun s => { s with possibleKey := none }
  | none => return ()

def noteKey : Scanner Unit := do
  let s ← get
  if s.allowsKey then
    dropKey
    let isRequired := !(← inBrackets) && s.level == s.cursor.mark.column + 1
    modify fun s => { s with possibleKey := some ⟨isRequired, s.reversed.length, s.cursor.mark⟩ }

/-- Whether what began at a place cannot be a key any more: a key stands on one line and is not long. -/
def isStale (k : PossibleKey) (now : Mark) : Bool :=
  k.mark.line < now.line || k.mark.index + 1024 < now.index

def dropStaleKeys : Scanner Unit := do
  let s ← get
  let now := s.cursor.mark
  match (s.possibleKey :: s.outerKeys).find? fun k? => k?.any fun k => isStale k now && k.isRequired with
  | some (some k) => fail "could not find expected ':'" (some ("while scanning a simple key", k.mark))
  | _ =>
    let fresh := fun (k? : Option PossibleKey) => k?.filter (!isStale · now)
    set { s with possibleKey := fresh s.possibleKey, outerKeys := s.outerKeys.map fresh }

/-- Moves on over blanks, comments and line breaks. -/
def skipGaps : Nat → Scanner Unit
  | 0 => return ()
  | fuel + 1 => do
    let allowsTabs := (← inBrackets) || !(← get).allowsKey
    let c := ((← get).cursor.span fun c => c == ' ' || (allowsTabs && c == '\t')).2
    let c := if c.starts "#" then (c.span (!isBreak ·)).2 else c
    modify fun s => { s with cursor := c }
    if c.rest.head?.any isBreak then
      skip 1
      if !(← inBrackets) then allowKey true
      skipGaps fuel

def addMark (symbol : Symbol) : Scanner Unit := do
  add symbol (← get).cursor.mark
  skip 1

def openBracket (symbol : Symbol) : Scanner Unit := do
  noteKey
  modify fun s => { s with possibleKey := none, outerKeys := s.possibleKey :: s.outerKeys }
  allowKey true
  addMark symbol

def closeBracket (symbol : Symbol) : Scanner Unit := do
  dropKey
  modify fun s =>
    match s.outerKeys with
    | possibleKey :: outerKeys => { s with possibleKey, outerKeys }
    | [] => s
  allowKey false
  addMark symbol

def entry : Scanner Unit := do
  let s ← get
  if !(← inBrackets) then
    if !s.allowsKey then fail "block sequence entries are not allowed in this context" none
    insert s.reversed.length (← wind .listBlock s.cursor.mark)
  dropKey
  allowKey true
  addMark .entry

def explicitKey : Scanner Unit := do
  let s ← get
  if !(← inBrackets) then
    if !s.allowsKey then fail "mapping keys are not allowed in this context" none
    insert s.reversed.length (← wind .recordBlock s.cursor.mark)
  dropKey
  allowKey !(← inBrackets)
  addMark .key

def value : Scanner Unit := do
  let s ← get
  match s.possibleKey with
  | some k =>
    let block ← wind .recordBlock k.mark
    insert k.position (block ++ [⟨.key, k.mark⟩])
    modify fun s => { s with possibleKey := none }
    allowKey false
  | none =>
    if !(← inBrackets) then
      if !s.allowsKey then fail "mapping values are not allowed in this context" none
      insert s.reversed.length (← wind .recordBlock s.cursor.mark)
    allowKey !(← inBrackets)
  addMark .value

def isAnchorMark (c : Char) : Bool :=
  c.isAlphanum || c == '_' || c == '-'

def anchorName (isAlias : Bool) : Scanner String := do
  let c := (← get).cursor
  let (name, behind) := (c.skip 1).span isAnchorMark
  modify fun s => { s with cursor := behind }
  if name.isEmpty || !(behind.hasGapAt 0 || ['?', ':', ',', ']', '\x7d', '%', '@', '`'].any (behind.ahead 0 == some ·)) then
    fail "did not find expected alphabetic or numeric character"
      (some (if isAlias then "while scanning an alias" else "while scanning an anchor", c.mark))
  else return String.ofList name

def anchor (isAlias : Bool) : Scanner Unit := do
  let mark := (← get).cursor.mark
  noteKey
  allowKey false
  let name ← anchorName isAlias
  add (if isAlias then .reference name else .anchor name) mark

def isTagMark (c : Char) : Bool :=
  c.isAlphanum || "-;/?:@&=+$_.~*'()%!".toList.contains c

/-- Reads a tag. Only the handle at its start matters, since no tag changes what a text reads as. -/
def tag : Scanner Unit := do
  let c := (← get).cursor
  noteKey
  allowKey false
  let (handle, behind) :=
    if c.ahead 1 == some '<' then
      let behind := ((c.skip 2).span fun c => isTagMark c || c == ',' || c == '[' || c == ']').2
      ("!", if behind.starts ">" then behind.skip 1 else behind)
    else
      let (name, behind) := (c.skip 1).span isAnchorMark
      let (handle, behind) :=
        if behind.starts "!" then (String.ofList ('!' :: name ++ ['!']), behind.skip 1) else ("!", behind)
      (handle, (behind.span isTagMark).2)
  modify fun s => { s with cursor := behind }
  if behind.hasGapAt 0 || ((← inBrackets) && behind.starts ",") then add (.tag handle) c.mark
  else fail "did not find expected whitespace or line break" (some ("while scanning a tag", c.mark))

/-- Reads a line that states something about the document behind it. -/
def directive : Scanner Unit := do
  unwind 0
  dropKey
  allowKey false
  let c := (← get).cursor
  let (line, behind) := c.span (!isBreak ·)
  let words := (String.ofList line).splitOn " " |>.filter (· != "")
  modify fun s => { s with cursor := behind }
  match words with
  | "%YAML" :: version :: rest =>
    if version != "1.1" && version != "1.2" then fail "found incompatible YAML document" none
    else if rest.head?.any (!·.startsWith "#") then
      fail "did not find expected comment or line break" (some ("while scanning a directive", c.mark))
    else add .version c.mark
  | "%TAG" :: handle :: _ :: _ => add (.tagHandle handle) c.mark
  | _ => fail "found unknown directive name" (some ("while scanning a directive", c.mark))

def documentMark (symbol : Symbol) : Scanner Unit := do
  unwind 0
  dropKey
  allowKey false
  add symbol (← get).cursor.mark
  skip 3

def block (isFolded : Bool) : Scanner Unit := do
  dropKey
  allowKey true
  let s ← get
  let (text, behind) ← blockScalar isFolded s.level s.cursor
  set { s with cursor := behind }
  add (.scalar (String.ofList text) false) s.cursor.mark

def quoted (isDouble : Bool) : Scanner Unit := do
  noteKey
  allowKey false
  let s ← get
  let (text, behind) ← quotedScalar isDouble s.cursor
  set { s with cursor := behind }
  add (.scalar (String.ofList text) false) s.cursor.mark

def plain : Scanner Unit := do
  noteKey
  allowKey false
  let s ← get
  let (text, endsLine, behind) ← plainScalar (← inBrackets) s.level s.cursor
  set { s with cursor := behind, allowsKey := endsLine }
  add (.scalar (String.ofList text) true) s.cursor.mark

def mayBeginPlain (c : Cursor) (inBrackets : Bool) : Bool :=
  match c.rest with
  | [] => false
  | first :: _ =>
    !(isGapMark first || first == '-' || first == '?' || first == ':' || leadingIndicators.contains first) ||
      (first == '-' && !(c.ahead 1).any isBlankMark) ||
      (!inBrackets && (first == '?' || first == ':') && !c.hasGapAt 1)

def symbol : Scanner Unit := do
  let s ← get
  let c := s.cursor
  let inBrackets ← inBrackets
  let atMark := fun (mark : String) => c.starts mark && (inBrackets || c.hasGapAt 1)
  if c.mark.column == 0 && c.starts "%" then directive
  else if c.atDocumentMark then documentMark (if c.starts "-" then .documentStart else .documentEnd)
  else if c.starts "[" then openBracket .listOpen
  else if c.starts "\x7b" then openBracket .recordOpen
  else if c.starts "]" then closeBracket .listClose
  else if c.starts "\x7d" then closeBracket .recordClose
  else if c.starts "," then
    dropKey
    allowKey true
    addMark .comma
  else if c.starts "-" && c.hasGapAt 1 then entry
  else if atMark "?" then explicitKey
  else if atMark ":" then value
  else if c.starts "*" then anchor true
  else if c.starts "&" then anchor false
  else if c.starts "!" then tag
  else if !inBrackets && (c.starts "|" || c.starts ">") then block (c.starts ">")
  else if c.starts "'" || c.starts "\"" then quoted (c.starts "\"")
  else if mayBeginPlain c inBrackets then plain
  else fail "found character that cannot start any token" (some ("while scanning for the next token", c.mark))

def toEnd : Nat → Scanner Unit
  | 0 => return ()
  | fuel + 1 => do
    skipGaps ((← get).cursor.rest.length + 1)
    dropStaleKeys
    let c := (← get).cursor
    if !(← inBrackets) then unwind (c.mark.column + 1)
    if c.rest.isEmpty then
      let mark := if c.mark.column = 0 then c.mark else ⟨c.mark.index, c.mark.line + 1, 0⟩
      modify fun s => { s with cursor := { s.cursor with mark } }
      if !(← inBrackets) then unwind 0
      dropKey
      add .streamEnd mark
    else
      symbol
      toEnd fuel

end Scanner

def symbolsOf (text : String) : Except Malformed (List PlacedSymbol) := do
  let cs := normalized text.toList
  if cs.any (!isAllowed ·) then throw ⟨"control characters are not allowed", .start, none⟩
  let (_, s) ← (Scanner.toEnd (cs.length + 1)).run { cursor := ⟨cs, .start⟩ }
  return s.reversed.reverse

end CommandBinding.Data.Yaml
