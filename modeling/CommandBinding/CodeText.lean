import CommandBinding.Words

/-!
Type and expression text as strings. Token printers put spaces where they like, so texts are compared in one
spacing: `CodeText.tight` keeps white space only where it separates two word characters, and leaves string and
character literals alone. `CodeText.wrapped?` reads the shape `Head<Inner>` off such a text.
-/
namespace CommandBinding.CodeText

/-- Part of a word: two words need a space between them. -/
def isWordChar (c : Char) : Bool :=
  Unicode.isAlphanumeric c || c == '_'

/-- Where the reader of a text stands: between literals, inside a literal that ends at `quote`, or behind a
backslash inside one. -/
inductive Region where
  | code
  | literal (quote : Char)
  | escaped (quote : Char)
deriving DecidableEq, Repr

/-- Whether the apostrophe in front of `rest` opens a character literal; otherwise it belongs to a lifetime. -/
def opensCharacter (rest : List Char) : Bool :=
  match rest with
  | '\\' :: _ => true
  | _ :: '\'' :: _ => true
  | _ => false

/-- The region behind the character `c` of a literal that ends at `quote`. -/
def insideLiteral (quote c : Char) : Region :=
  if c == '\\' then .escaped quote else if c == quote then .code else .literal quote

/-- The region behind the non-blank character `c` of code that is followed by `rest`. -/
def afterCode (c : Char) (rest : List Char) : Region :=
  if c == '"' then .literal '"'
  else if c == '\'' && opensCharacter rest then .literal '\''
  else .code

/-- Copies a text, leaving out white space in code unless it separates two word characters, which one space then
does. `last` is the character written last and `gap` tells that white space stands between it and the rest. -/
def tightFrom : Region → (last : Option Char) → (gap : Bool) → List Char → List Char
  | _, _, _, [] => []
  | .literal quote, _, _, c :: rest => c :: tightFrom (insideLiteral quote c) (some c) false rest
  | .escaped quote, _, _, c :: rest => c :: tightFrom (.literal quote) (some c) false rest
  | .code, last, gap, c :: rest =>
    if Unicode.isBlank c then tightFrom .code last true rest
    else if gap && last.any isWordChar && isWordChar c then
      ' ' :: c :: tightFrom (afterCode c rest) (some c) false rest
    else c :: tightFrom (afterCode c rest) (some c) false rest

/-- The text in its one spacing. -/
def tight (text : String) : String :=
  String.ofList (tightFrom .code none false (trimBlanks text.toList))

def startsName (c : Char) : Bool :=
  c.isAlpha || c == '_'

def continuesName (c : Char) : Bool :=
  c.isAlphanum || c == '_'

/-- Reads `name::…::name<` and returns the last name and what follows the bracket. `segment` holds, reversed, the
characters of the name that is being read. -/
def headFrom (segment : List Char) : List Char → Option (List Char × List Char)
  | [] => none
  | c :: rest =>
    if (if segment.isEmpty then startsName c else continuesName c) then headFrom (c :: segment) rest
    else if segment.isEmpty then none
    else if c == '<' then some (segment.reverse, rest)
    else match c, rest with
      | ':', ':' :: rest' => headFrom [] rest'
      | _, _ => none

/-- Whether every bracket of the text is closed, no bracket closes more than was opened, and no comma stands
outside all brackets; `depth` brackets are open at the start. The kinds of bracket are not told apart. -/
def isOneArgument (depth : Nat) : List Char → Bool
  | [] => depth == 0
  | c :: rest =>
    if c == '<' || c == '(' || c == '[' then isOneArgument (depth + 1) rest
    else if c == '>' || c == ')' || c == ']' then depth != 0 && isOneArgument (depth - 1) rest
    else if c == ',' && depth == 0 then false
    else isOneArgument depth rest

/-- The characters before a final `>`. -/
def beforeFinalAngle (cs : List Char) : Option (List Char) :=
  match cs.reverse with
  | '>' :: inner => some inner.reverse
  | _ => none

/-- Splits `path::Head<Inner>` into `Head` and `Inner`, where the brackets hold exactly one argument and enclose
the whole rest of the text. -/
def wrapped? (text : String) : Option (String × String) := do
  let (head, rest) ← headFrom [] text.toList
  let inner ← beforeFinalAngle rest
  if inner.isEmpty || inner.contains '\n' || !isOneArgument 0 inner then none
  else some (String.ofList head, String.ofList inner)

/-- The element type of a text `Vec<element>`, under any path. -/
def sequenceElement? (text : String) : Option String :=
  match wrapped? text with
  | some ("Vec", element) => some element
  | _ => none

def sequenceOf (element : String) : String :=
  "Vec<" ++ element ++ ">"

/-- What follows the last `::` of the text, or `best` if there is none. -/
def afterLastColons (best : List Char) : List Char → List Char
  | [] => best
  | c :: rest =>
    afterLastColons (if c == ':' && rest.head? == some ':' then rest.tail else best) rest

/-- The last segment of a path, cut off at its last `::`; the whole text if it has none. -/
def lastSegment (text : String) : String :=
  String.ofList (afterLastColons text.toList text.toList)

end CommandBinding.CodeText
