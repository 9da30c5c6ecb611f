import CommandBinding.Data
import CommandBinding.Unicode.Properties

/-!
Data values as YAML in block style. Lists stand at the column of the key that holds them. Texts stay plain unless
that would read back as something else; then they are quoted, or written as a block when they have line breaks.
Named alternatives are tags.
-/
namespace CommandBinding.Data.Yaml

/-- A run of decimal digits, and what follows it. -/
def digits (cs : List Char) : List Char × List Char :=
  (cs.takeWhile Char.isDigit, cs.dropWhile Char.isDigit)

def unsigned (cs : List Char) : List Char :=
  match cs with
  | '+' :: rest => rest
  | '-' :: rest => rest
  | _ => cs

/-- The natural number that digits of a base make up behind those of `value`. -/
def valueFrom (base value : Nat) (cs : List Char) : Nat :=
  cs.foldl (fun n c => base * n + (Unicode.hexDigit? c).getD 0) value

/-- The value of the exponent that ends a number, which may be missing. -/
def exponent? (cs : List Char) : Option Int :=
  match cs with
  | [] => some 0
  | c :: rest =>
    let power := unsigned rest
    if (c == 'e' || c == 'E') && power.all Char.isDigit && !power.isEmpty then
      let n : Int := valueFrom 10 0 power
      some (if rest.head? == some '-' then -n else n)
    else none

/-- The least number that rounds to no float: half a unit beyond the greatest one. -/
def floatLimit : Nat :=
  Nat.pow 2 1024 - Nat.pow 2 970

/-- Whether the number with these digits in front of a power of ten rounds to a float. -/
def isInFloatRange (ds : List Char) (power : Int) : Bool :=
  let n := valueFrom 10 0 ds
  let places := (ds.dropWhile (· == '0')).length
  if n == 0 || places + power ≤ 308 then true
  else if 309 < places + power then false
  else if 0 ≤ power then n * Nat.pow 10 power.toNat < floatLimit
  else n < floatLimit * Nat.pow 10 (-power).toNat

/-- Whether the text is a decimal number, with or without fraction and exponent, in the range of floats. -/
def isDecimal (cs : List Char) : Bool :=
  let (whole, rest) := digits (unsigned cs)
  let (fraction, rest) := match rest with
    | '.' :: rest => digits rest
    | _ => ([], rest)
  let ds := whole ++ fraction
  !ds.isEmpty && (exponent? rest).any fun power => isInFloatRange ds (power - fraction.length)

/-- Whether the text consists of a leading zero and further digits, which is no number. -/
def isZeroPadded (cs : List Char) : Bool :=
  match unsigned cs with
  | '0' :: c :: rest => (c :: rest).all Char.isDigit
  | _ => false

/-- Whether `c` is a digit of the base. -/
def isDigitOf (base : Nat) (c : Char) : Bool :=
  (Unicode.hexDigit? c).any (· < base)

/-- Whether the text is an integer written in base 16, 8 or 2. It has 128 bits, one of them for a sign. -/
def isBased (cs : List Char) : Bool :=
  match unsigned cs with
  | '0' :: mark :: rest =>
    let base := if mark == 'x' then 16 else if mark == 'o' then 8 else if mark == 'b' then 2 else 0
    let limit := if cs.head? == some '-' then Nat.pow 2 127 + 1 else Nat.pow 2 128
    !rest.isEmpty && rest.all (isDigitOf base) && valueFrom base 0 rest < limit
  | _ => false

/-- The scalars that are neither texts nor decimal numbers. -/
def reservedScalars : List String :=
  ["", "~", "null", "Null", "NULL", "true", "True", "TRUE", "false", "False", "FALSE",
   ".inf", ".Inf", ".INF", "+.inf", "+.Inf", "+.INF", "-.inf", "-.Inf", "-.INF", ".nan", ".NaN", ".NAN"]

/-- Whether a plain scalar with this text would not read back as a text. -/
def isAmbiguous (text : String) : Bool :=
  reservedScalars.contains text || isBased text.toList ||
    (isDecimal text.toList && !isZeroPadded text.toList)

def isBreak (c : Char) : Bool :=
  c == '\n' || c == '\r' || c.toNat == 0x85 || c.toNat == 0x2028 || c.toNat == 0x2029

/-- A character that may stand outside escapes: of the basic plane, and neither control nor byte-order mark. -/
def isPrintable (c : Char) : Bool :=
  let n := c.toNat
  n == 10 || (0x20 ≤ n && n ≤ 0x7e) || (0xa0 ≤ n && n < 0xd800) || (0xe000 ≤ n && n < 0xfffe && n != 0xfeff)

/-- A space, a tab, a line break or the end of the text. -/
def isGap (next : Option Char) : Bool :=
  next.all fun c => c == ' ' || c == '\t' || isBreak c

/-- The characters that cannot begin a plain scalar. -/
def leadingIndicators : List Char :=
  ['#', ',', '[', ']', '\x7b', '\x7d', '&', '*', '!', '|', '>', '\'', '"', '%', '@', '`']

/-- Whether a plain scalar may begin with `c`, followed by `rest`. -/
def mayBegin (c : Char) (rest : List Char) : Bool :=
  !leadingIndicators.contains c && !((c == '?' || c == ':' || c == '-') && isGap rest.head?)

/-- Whether no further character of a plain scalar would end it; `last` is the character before. -/
def mayContinue (last : Char) : List Char → Bool
  | [] => true
  | c :: rest =>
    !(c == ':' && isGap rest.head?) && !(c == '#' && isGap (some last)) && mayContinue c rest

/-- Whether a space stands before or behind a line break: `first` is looked for in front of `second`. -/
def hasPair (first second : Char → Bool) : List Char → Bool
  | a :: b :: rest => (first a && second b) || hasPair first second (b :: rest)
  | _ => false

def isSpace (c : Char) : Bool := c == ' '

/-- Whether no character of the text needs an escape, and no line ends in a space. -/
def isClean (cs : List Char) : Bool :=
  cs.all isPrintable && !hasPair isSpace isBreak cs

def isPlain (cs : List Char) : Bool :=
  match cs with
  | [] => false
  | c :: rest =>
    isClean cs && !cs.any isBreak && !isSpace c && !(cs.getLast?.any isSpace) &&
      !(['-', '-', '-'].isPrefixOf cs) && !(['.', '.', '.'].isPrefixOf cs) && mayBegin c rest && mayContinue c rest

/-- Upper-case hexadecimal digits of `n`, `width` of them. -/
def hexDigits : Nat → Nat → List Char
  | 0, _ => []
  | width + 1, n => hexDigits width (n / 16) ++ [(n % 16).digitChar.toUpper]

def letterEscapes : List (Nat × Char) :=
  [(0, '0'), (7, 'a'), (8, 'b'), (9, 't'), (10, 'n'), (11, 'v'), (12, 'f'), (13, 'r'), (0x1b, 'e'), (0x22, '"'),
   (0x5c, '\\'), (0x85, 'N'), (0xa0, '_'), (0x2028, 'L'), (0x2029, 'P')]

def escape (c : Char) : List Char :=
  let n := c.toNat
  if isPrintable c && !isBreak c && c != '"' && c != '\\' then [c]
  else match letterEscapes.find? (·.1 == n) with
    | some (_, letter) => ['\\', letter]
    | none =>
      if n ≤ 0xff then '\\' :: 'x' :: hexDigits 2 n
      else if n ≤ 0xffff then '\\' :: 'u' :: hexDigits 4 n
      else '\\' :: 'U' :: hexDigits 8 n

def doubleQuoted (cs : List Char) : String :=
  "\"" ++ String.ofList (cs.flatMap escape) ++ "\""

/-- A text between single quotes, which are doubled inside. -/
def singleQuoted (cs : List Char) : String :=
  "'" ++ String.ofList (cs.flatMap fun c => if c == '\'' then ['\'', '\''] else [c]) ++ "'"

def spaces (n : Nat) : List Char :=
  List.replicate n ' '

/-- The lines of a literal block: each line that is not empty is indented. -/
def blockLines (indent : Nat) (atStart : Bool) : List Char → List Char
  | [] => []
  | c :: rest =>
    if isBreak c then c :: blockLines indent true rest
    else if atStart then spaces indent ++ c :: blockLines indent false rest
    else c :: blockLines indent false rest

/-- The mark that tells how many of the final line breaks belong to the text. -/
def chomping (cs : List Char) : String :=
  match cs.reverse with
  | last :: before =>
    if !isBreak last then "-"
    else match before with
      | [] => "+"
      | c :: _ => if isBreak c then "+" else ""
  | [] => "-"

/-- A text as a literal block whose lines are indented by `indent`. -/
def literalBlock (indent : Nat) (cs : List Char) : String :=
  let hint := if cs.head?.any fun c => isSpace c || isBreak c then "2" else ""
  "|" ++ hint ++ chomping cs ++ "\n" ++ String.ofList (blockLines indent true cs)

/-- A text, as the value of a key or item at column `indent`. -/
def scalar (indent : Nat) (text : String) : String :=
  let cs := text.toList
  if cs.contains '\n' then
    if isClean cs && !(cs.getLast?.any isSpace) then literalBlock (indent + 2) cs else doubleQuoted cs
  else if isAmbiguous text then singleQuoted cs
  else if isPlain cs then text
  else if isClean cs && !hasPair isBreak isSpace cs then singleQuoted cs
  else doubleQuoted cs

/-- The line break that ends a value, unless it has ended its line itself. -/
def endLine (text : String) : String :=
  if text.endsWith "\n" then text else text ++ "\n"

mutual

/-- The lines of the fields of a record at a column. The first line lacks its indentation if `inline` is set,
because it follows the dash of a list. -/
def fieldLines (indent : Nat) (inline : Bool) : List (String × Data) → String
  | [] => ""
  | (name, value) :: rest =>
    (if inline then "" else String.ofList (spaces indent)) ++ name ++ ":" ++ valueOfKey indent value ++
      fieldLines indent false rest

/-- The lines of the items of a list whose dashes stand at a column. -/
def itemLines (indent : Nat) : List Data → String
  | [] => ""
  | item :: rest =>
    String.ofList (spaces indent) ++ "-" ++ valueOfItem indent item ++ itemLines indent rest

def valueOfKey (indent : Nat) : Data → String
  | .null => " null\n"
  | .bool value => if value then " true\n" else " false\n"
  | .number value => " " ++ toString value ++ "\n"
  | .string text => " " ++ endLine (scalar indent text)
  | .list items => if items.isEmpty then " []\n" else "\n" ++ itemLines indent items
  | .record fields => if fields.isEmpty then " \x7b\x7d\n" else "\n" ++ fieldLines (indent + 2) false fields
  | .variant name payload => " !" ++ name ++ valueOfKey indent payload

def valueOfItem (indent : Nat) : Data → String
  | .null => " null\n"
  | .bool value => if value then " true\n" else " false\n"
  | .number value => " " ++ toString value ++ "\n"
  | .string text => " " ++ endLine (scalar indent text)
  | .list items => if items.isEmpty then " []\n" else "\n" ++ itemLines (indent + 2) items
  | .record fields => if fields.isEmpty then " \x7b\x7d\n" else " " ++ fieldLines (indent + 2) true fields
  | .variant name payload => " !" ++ name ++ valueOfKey indent payload

end

def document (items : List Data) : String :=
  if items.isEmpty then "[]\n" else itemLines 0 items

end CommandBinding.Data.Yaml
