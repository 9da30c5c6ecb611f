import CommandBinding.Data

/-!
Data values as indented JSON: two spaces a level, one field or item a line, and `[]` or `{}` for what is empty.
A named alternative is an object with one field.
-/
namespace CommandBinding.Data.Json

/-- The four lower-case hexadecimal digits of a number below 65536. -/
def hexDigits (n : Nat) : List Char :=
  [n / 4096 % 16, n / 256 % 16, n / 16 % 16, n % 16].map Nat.digitChar

def escape (c : Char) : List Char :=
  if c == '"' then ['\\', '"']
  else if c == '\\' then ['\\', '\\']
  else if c == '\n' then ['\\', 'n']
  else if c == '\r' then ['\\', 'r']
  else if c == '\t' then ['\\', 't']
  else if c.toNat == 8 then ['\\', 'b']
  else if c.toNat == 12 then ['\\', 'f']
  else if c.toNat < 32 then '\\' :: 'u' :: hexDigits c.toNat
  else [c]

def quote (text : String) : String :=
  "\"" ++ String.ofList (text.toList.flatMap escape) ++ "\""

def newline (level : Nat) : String :=
  "\n" ++ String.ofList (List.replicate (2 * level) ' ')

/-- Lines between two brackets, one level further in than `level`. -/
def block (openBracket closeBracket : String) (level : Nat) (lines : List String) : String :=
  if lines.isEmpty then openBracket ++ closeBracket
  else openBracket ++ newline (level + 1) ++ ("," ++ newline (level + 1)).intercalate lines ++ newline level ++
    closeBracket

mutual

def render (level : Nat) : Data → String
  | .null => "null"
  | .bool value => if value then "true" else "false"
  | .number value => toString value
  | .string text => quote text
  | .list items => block "[" "]" level (renderItems (level + 1) items)
  | .record fields => block "\x7b" "\x7d" level (renderFields (level + 1) fields)
  | .variant name payload => block "\x7b" "\x7d" level [quote name ++ ": " ++ render (level + 1) payload]

def renderItems (level : Nat) : List Data → List String
  | [] => []
  | item :: rest => render level item :: renderItems level rest

def renderFields (level : Nat) : List (String × Data) → List String
  | [] => []
  | (name, value) :: rest => (quote name ++ ": " ++ render level value) :: renderFields level rest

end

end CommandBinding.Data.Json
