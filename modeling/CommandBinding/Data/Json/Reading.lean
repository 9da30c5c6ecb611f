import CommandBinding.Data.Json
import CommandBinding.Token.Quoted

/-!
Data values from JSON text. Blanks may stand between any two marks. An object is a record, and one with a repeated key is
not read; of the numbers only the natural ones are.
-/
namespace CommandBinding.Data.Json

def isBlank (c : Char) : Bool :=
  c == ' ' || c == '\n' || c == '\r' || c == '\t'

def skipBlanks (cs : List Char) : List Char :=
  cs.dropWhile isBlank

def codeUnit? (a b c d : Char) : Option Nat := do
  return 4096 * (← Unicode.hexDigit? a) + 256 * (← Unicode.hexDigit? b) + 16 * (← Unicode.hexDigit? c) +
    (← Unicode.hexDigit? d)

def paired? (high low : Nat) : Option Char :=
  if 0xdc00 ≤ low ∧ low < 0xe000 then Quoted.character? (0x10000 + 0x400 * (high - 0xd800) + (low - 0xdc00)) else none

def escaped? : Char → Option Char
  | '"' => some '"'
  | '\\' => some '\\'
  | '/' => some '/'
  | 'b' => some '\x08'
  | 'f' => some '\x0c'
  | 'n' => some '\n'
  | 'r' => some '\r'
  | 't' => some '\t'
  | _ => none

def withCharacter (c : Char) : List Char × List Char → List Char × List Char
  | (text, rest) => (c :: text, rest)

/-- Reads on to the closing quote: the text, and the rest. Characters beyond the first plane are escaped as pairs. -/
def readText : List Char → Option (List Char × List Char)
  | [] => none
  | '"' :: rest => some ([], rest)
  | '\\' :: 'u' :: a :: b :: c :: d :: rest => do
    let unit ← codeUnit? a b c d
    if 0xd800 ≤ unit ∧ unit < 0xdc00 then
      match rest with
      | '\\' :: 'u' :: a :: b :: c :: d :: rest =>
        let value ← paired? unit (← codeUnit? a b c d)
        (readText rest).map (withCharacter value)
      | _ => none
    else
      let value ← Quoted.character? unit
      (readText rest).map (withCharacter value)
  | '\\' :: c :: rest => do
    let value ← escaped? c
    (readText rest).map (withCharacter value)
  | c :: rest => if c.toNat < 32 then none else (readText rest).map (withCharacter c)

def readNumber (cs : List Char) : Option (Data × List Char) :=
  let digits := cs.takeWhile Char.isDigit
  let value := Nat.ofDigitChars 10 digits 0
  if Nat.toDigits 10 value = digits then some (.number value, cs.dropWhile Char.isDigit) else none

/-- What reads from the front of a text, and gives the rest. -/
abbrev Reader (α : Type) := List Char → Option (α × List Char)

def stringFrom (cs : List Char) : Option (Data × List Char) :=
  (readText cs).map fun (text, rest) => (.string (String.ofList text), rest)

/-- Reads on behind the bracket in front of a list; `items` reads one item at least. -/
def listFrom (items : Reader (List Data)) (cs : List Char) : Option (Data × List Char) :=
  match skipBlanks cs with
  | ']' :: rest => some (.list [], rest)
  | _ => (items cs).map fun (items, rest) => (.list items, rest)

/-- Reads on behind the brace in front of a record; `fields` reads one field at least. -/
def recordFrom (fields : Reader (List (String × Data))) (cs : List Char) : Option (Data × List Char) :=
  match skipBlanks cs with
  | '\x7d' :: rest => some (.record [], rest)
  | _ => (fields cs).bind fun (fields, rest) =>
    if (fields.map (·.1)).Nodup then some (.record fields, rest) else none

def valueFrom (items : Reader (List Data)) (fields : Reader (List (String × Data))) : Reader Data
  | '"' :: rest => stringFrom rest
  | '[' :: rest => listFrom items rest
  | '\x7b' :: rest => recordFrom fields rest
  | 'n' :: 'u' :: 'l' :: 'l' :: rest => some (.null, rest)
  | 't' :: 'r' :: 'u' :: 'e' :: rest => some (.bool true, rest)
  | 'f' :: 'a' :: 'l' :: 's' :: 'e' :: rest => some (.bool false, rest)
  | cs => readNumber cs

/-- Reads on behind a member of a list or a record, which ends in `closing`; `more` reads the members behind a comma. -/
def membersFrom {α : Type} (closing : Char) (more : Reader (List α)) (member : α) : Reader (List α)
  | [] => none
  | mark :: rest =>
    if mark = ',' then (more rest).map fun (members, rest) => (member :: members, rest)
    else if mark = closing then some ([member], rest)
    else none

def colonFrom (key : String) (cs : List Char) : Option (String × List Char) :=
  match skipBlanks cs with
  | ':' :: rest => some (key, rest)
  | _ => none

/-- Reads a key that begins with the first character, and the colon behind it. -/
def keyFrom : Reader String
  | '"' :: rest => (readText rest).bind fun (name, rest) => colonFrom (String.ofList name) rest
  | _ => none

mutual

/-- Reads a value, going down at most `fuel` levels. -/
def readValue : Nat → Reader Data
  | 0, _ => none
  | fuel + 1, cs => valueFrom (readItems fuel) (readFields fuel) (skipBlanks cs)

/-- Reads items, one at least, and the bracket behind them. -/
def readItems : Nat → Reader (List Data)
  | 0, _ => none
  | fuel + 1, cs => (readValue fuel cs).bind fun (item, rest) =>
    membersFrom ']' (readItems fuel) item (skipBlanks rest)

/-- Reads fields, one at least, and the brace behind them. -/
def readFields : Nat → Reader (List (String × Data))
  | 0, _ => none
  | fuel + 1, cs => (keyFrom (skipBlanks cs)).bind fun (name, rest) => (readValue fuel rest).bind fun (value, rest) =>
    membersFrom '\x7d' (readFields fuel) (name, value) (skipBlanks rest)

end

/-- The value that a text is. Each level takes a character, so the length of the text bounds the levels. -/
def read? (text : String) : Option Data := do
  let (value, rest) ← readValue text.length text.toList
  if rest.all isBlank then return value else none

end CommandBinding.Data.Json
