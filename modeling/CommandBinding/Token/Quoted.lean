import CommandBinding.Unicode.Properties

/-!
Quoted text. A quoted literal is read one character at a time by an automaton that also gives the characters the
literal stands for; `written` goes the other way. The three kinds of strings differ in what may stand in them.
-/
namespace CommandBinding.Quoted

structure Contents where
  /-- Characters beyond ASCII, and escapes by code point. -/
  unicode : Bool
  /-- Escapes of bytes from 128 on. -/
  highBytes : Bool
  /-- The character NUL. -/
  nul : Bool

/-- The contents of strings and characters. -/
def Contents.text : Contents := ⟨true, false, true⟩

/-- The contents of byte strings and bytes. -/
def Contents.bytes : Contents := ⟨false, true, true⟩

/-- The contents of strings that end in NUL and so cannot hold it. -/
def Contents.terminated : Contents := ⟨true, true, false⟩

/-- Whether a character may stand for itself. -/
def Contents.allows (contents : Contents) (c : Char) : Bool :=
  (contents.unicode || c.toNat < 128) && (contents.nul || c.toNat != 0)

inductive State where
  | plain
  /-- Behind a carriage return, which a line feed has to follow. -/
  | carriage
  /-- Behind a backslash. -/
  | escape
  /-- Before the first digit of a byte. -/
  | byte
  /-- Before the second digit of a byte. -/
  | byteRest (first : Nat)
  /-- Before the brace of a code point. -/
  | codePoint
  /-- Behind `digits` digits of a code point, which make up `value`. -/
  | codePointRest (value digits : Nat)
  /-- In the blanks behind an escaped line break, which stand for nothing. -/
  | gap
  /-- Behind a carriage return in such blanks. -/
  | gapCarriage
deriving DecidableEq, Repr

/-- The character with a code point, if there is one. -/
def character? (n : Nat) : Option Char :=
  if n.isValidChar then some (Char.ofNat n) else none

def plainStep (contents : Contents) (c : Char) : Option (State × List Char) :=
  if c == '\r' then some (.carriage, [])
  else if c == '\\' then some (.escape, [])
  else if contents.allows c then some (.plain, [c])
  else none

def escapeStep (contents : Contents) (c : Char) : Option (State × List Char) :=
  match c with
  | 'n' => some (.plain, ['\n'])
  | 'r' => some (.plain, ['\r'])
  | 't' => some (.plain, ['\t'])
  | '\\' => some (.plain, ['\\'])
  | '\'' => some (.plain, ['\''])
  | '"' => some (.plain, ['"'])
  | '0' => if contents.nul then some (.plain, ['\x00']) else none
  | 'x' => some (.byte, [])
  | 'u' => if contents.unicode then some (.codePoint, []) else none
  | '\n' => some (.gap, [])
  | '\r' => some (.gapCarriage, [])
  | _ => none

/-- A step on the character `c`: the next state, and the characters that the literal stands for by it. -/
def step (contents : Contents) : State → Char → Option (State × List Char)
  | .plain, c => plainStep contents c
  | .carriage, c => if c == '\n' then some (.plain, ['\n']) else none
  | .escape, c => escapeStep contents c
  | .byte, c => do
    let digit ← Unicode.hexDigit? c
    if digit < 8 || contents.highBytes then some (.byteRest digit, []) else none
  | .byteRest first, c => do
    let digit ← Unicode.hexDigit? c
    let value := 16 * first + digit
    if value == 0 && !contents.nul then none else some (.plain, [Char.ofNat value])
  | .codePoint, c => if c == '\x7b' then some (.codePointRest 0 0, []) else none
  | .codePointRest value digits, c =>
    if c == '_' && digits != 0 then some (.codePointRest value digits, [])
    else if c == '\x7d' && digits != 0 then do
      let c ← character? value
      if value == 0 && !contents.nul then none else some (.plain, [c])
    else do
      let digit ← Unicode.hexDigit? c
      if digits == 6 then none else some (.codePointRest (16 * value + digit) (digits + 1), [])
  | .gap, c =>
    if c == ' ' || c == '\t' || c == '\n' then some (.gap, [])
    else if c == '\r' then some (.gapCarriage, [])
    else plainStep contents c
  | .gapCarriage, c => if c == '\n' then some (.gap, []) else none

def State.mayClose : State → Bool
  | .plain | .gap => true
  | _ => false

/-- Reads on to the closing quote: what the literal stands for, and the rest. -/
def read (contents : Contents) : State → List Char → Option (List Char × List Char)
  | _, [] => none
  | state, c :: rest =>
    if state.mayClose && c == '"' then some ([], rest)
    else match step contents state c with
      | none => none
      | some (state', value) => (read contents state' rest).map fun (more, rest') => (value ++ more, rest')

/-- Reads on to the end of an escape and gives the rest. A line break is no escape here. -/
def escapeEnd (contents : Contents) : State → List Char → Option (List Char)
  | .plain, rest => some rest
  | .gap, _ => none
  | .gapCarriage, _ => none
  | _, [] => none
  | state, c :: rest =>
    match step contents state c with
    | none => none
    | some (state', _) => escapeEnd contents state' rest

/-- Reads one character, or an escape of one, and the apostrophe behind it. -/
def characterEnd (contents : Contents) (cs : List Char) : Option (List Char) :=
  let behind := match cs with
    | '\\' :: rest => escapeEnd contents .escape rest
    | c :: rest => if contents.allows c then some rest else none
    | [] => none
  match behind with
  | some ('\'' :: rest) => some rest
  | _ => none

/-- Reads on to a quote with the fence behind it. Nothing is escaped, and a line break is kept as it is. -/
def readRaw (contents : Contents) (fence : List Char) : List Char → Option (List Char × List Char)
  | [] => none
  | '\r' :: '\n' :: rest =>
    (readRaw contents fence rest).map fun (more, rest') => ('\r' :: '\n' :: more, rest')
  | c :: rest =>
    if c == '"' && fence.isPrefixOf rest then some ([], rest.drop fence.length)
    else if c == '\r' || !contents.allows c then none
    else (readRaw contents fence rest).map fun (more, rest') => (c :: more, rest')

/-- Reads a raw literal from its fence on: at most 255 number signs, and a quote. -/
def readFenced (contents : Contents) (cs : List Char) : Option (List Char × List Char) :=
  let fence := cs.takeWhile (· == '#')
  match cs.drop fence.length with
  | '"' :: rest => if 255 < fence.length then none else readRaw contents fence rest
  | _ => none

/-- The value of a string literal, or `none` for any other literal. -/
def value? (literal : String) : Option String :=
  match literal.toList with
  | '"' :: rest => (read .text .plain rest).map fun (value, _) => String.ofList value
  | 'r' :: rest => (readFenced .text rest).map fun (value, _) => String.ofList value
  | _ => none

def hexDigits (n : Nat) : List Char :=
  Nat.toDigits 16 n

/-- How the character `c` is written in a string literal when `rest` follows. -/
def writtenCharacter (c : Char) (rest : List Char) : List Char :=
  if c == '\x00' then
    if rest.head?.any fun d => '0' ≤ d && d ≤ '7' then ['\\', 'x', '0', '0'] else ['\\', '0']
  else if c == '"' then ['\\', '"']
  else if c == '\\' then ['\\', '\\']
  else if c == '\n' then ['\\', 'n']
  else if c == '\r' then ['\\', 'r']
  else if c == '\t' then ['\\', 't']
  else if Unicode.isUnprinted c then ['\\', 'u', '\x7b'] ++ hexDigits c.toNat ++ ['\x7d']
  else [c]

def writtenFrom : List Char → List Char
  | [] => []
  | c :: rest => writtenCharacter c rest ++ writtenFrom rest

def written (text : String) : String :=
  "\"" ++ String.ofList (writtenFrom text.toList) ++ "\""

end CommandBinding.Quoted
