import CommandBinding.Token
import CommandBinding.Token.Number
import CommandBinding.Token.Quoted

/-!
From text to tokens. `Token.ofText?` fails on text that is no list of tokens: an unclosed bracket or literal, a
literal that is not well formed, a character that begins no token. Comments are blanks, but for those that document
what follows or encloses them; these become attributes.
-/
namespace CommandBinding.Lexer

/-- Whether `start` begins the text. -/
def startsWith (start : String) (cs : List Char) : Bool :=
  start.toList.isPrefixOf cs

/-- Blanks between tokens: white space, and the marks that set the direction of writing. -/
def isGap (c : Char) : Bool :=
  Unicode.isBlank c || c.toNat == 0x200e || c.toNat == 0x200f

/-- Splits a text at the end of its first line. A carriage return in front of the line feed is dropped. -/
def line : List Char → List Char × List Char
  | [] => ([], [])
  | '\n' :: rest => ([], '\n' :: rest)
  | '\r' :: '\n' :: rest => ([], '\n' :: rest)
  | c :: rest => let (first, behind) := line rest; (c :: first, behind)

/-- Reads on to the end of a comment in which `depth` comments are open: the text up to there, and the rest. -/
def comment (depth : Nat) : List Char → Option (List Char × List Char)
  | '/' :: '*' :: rest => (comment (depth + 1) rest).map fun (text, behind) => ('/' :: '*' :: text, behind)
  | '*' :: '/' :: rest =>
    if depth ≤ 1 then some (['*', '/'], rest)
    else (comment (depth - 1) rest).map fun (text, behind) => ('*' :: '/' :: text, behind)
  | c :: rest => (comment depth rest).map fun (text, behind) => (c :: text, behind)
  | [] => none

/-- Whether a line comment documents something; `cs` follows its two slashes. -/
def isLineDocumentation (cs : List Char) : Bool :=
  startsWith "!" cs || (startsWith "/" cs && !startsWith "//" cs)

/-- Whether a bracketed comment documents something; `cs` follows its opening mark. -/
def isBlockDocumentation (cs : List Char) : Bool :=
  startsWith "!" cs || (startsWith "*" cs && !startsWith "**" cs && !startsWith "*/" cs)

/-- The rest behind the blanks at the front of a text, of which there are at most as many as characters in `bound`. -/
def skipGapsFrom (bound cs : List Char) : List Char :=
  match bound with
  | [] => cs
  | _ :: bound =>
    match cs with
    | [] => []
    | '/' :: '/' :: rest => if isLineDocumentation rest then cs else skipGapsFrom bound (line rest).2
    | '/' :: '*' :: rest =>
      if isBlockDocumentation rest then cs
      else match comment 1 rest with
        | some (_, behind) => skipGapsFrom bound behind
        | none => cs
    | c :: rest => if isGap c then skipGapsFrom bound rest else cs

def skipGaps (cs : List Char) : List Char :=
  skipGapsFrom cs cs

/-- A comment that documents something: its text, whether it documents what encloses it, and the rest. -/
def documentation? (cs : List Char) : Option (List Char × Bool × List Char) :=
  match cs with
  | '/' :: '/' :: mark :: rest =>
    if isLineDocumentation (mark :: rest) then
      let (text, behind) := line rest
      some (text, mark == '!', behind)
    else none
  | '/' :: '*' :: mark :: rest =>
    if isBlockDocumentation (mark :: rest) then
      (comment 1 rest).map fun (text, behind) => (text.take (text.length - 2), mark == '!', behind)
    else none
  | _ => none

def hasWholeLineBreaks : List Char → Bool
  | '\r' :: '\n' :: rest => hasWholeLineBreaks rest
  | c :: rest => c != '\r' && hasWholeLineBreaks rest
  | [] => true

def documentationTokens (text : List Char) (isInner : Bool) : List Token :=
  [.mark '#' false] ++ (if isInner then [.mark '!' false] else []) ++
    [.group .bracket [.word "doc", .mark '=' false, .literal (Quoted.written (String.ofList text))]]

/-- The identifier at the front of a text, and the rest. -/
def name? (cs : List Char) : Option (List Char × List Char) :=
  match cs with
  | c :: rest =>
    if Unicode.isIdentifierStart c then
      some (c :: rest.takeWhile Unicode.isIdentifierContinue, rest.dropWhile Unicode.isIdentifierContinue)
    else none
  | [] => none

def neverRaw : List String := ["_", "super", "self", "Self", "crate"]

/-- The word at the front of a text, and the rest. -/
def word? (cs : List Char) : Option (String × List Char) :=
  match cs with
  | 'r' :: '#' :: rest =>
    (name? rest).bind fun (name, behind) =>
      let name := String.ofList name
      if neverRaw.contains name then none else some ("r#" ++ name, behind)
  | _ => (name? cs).map fun (name, behind) => (String.ofList name, behind)

/-- The beginnings of literals. A word with such a beginning would be a literal that is not well formed. -/
def literalStarts : List String := ["r\"", "r#\"", "r##", "b\"", "b'", "br\"", "br#", "c\"", "cr\"", "cr#"]

/-- The rest behind the literal at the front of a text, without its suffix. -/
def quotedEnd (cs : List Char) : Option (List Char) :=
  match cs with
  | '"' :: rest => (Quoted.read .text .plain rest).map (·.2)
  | 'b' :: '"' :: rest => (Quoted.read .bytes .plain rest).map (·.2)
  | 'c' :: '"' :: rest => (Quoted.read .terminated .plain rest).map (·.2)
  | 'b' :: 'r' :: rest => (Quoted.readFenced .bytes rest).map (·.2)
  | 'c' :: 'r' :: rest => (Quoted.readFenced .terminated rest).map (·.2)
  | 'r' :: rest => (Quoted.readFenced .text rest).map (·.2)
  | 'b' :: '\'' :: rest => Quoted.characterEnd .bytes rest
  | '\'' :: rest => Quoted.characterEnd .text rest
  | _ => none

def literalEnd (cs : List Char) : Option (List Char) :=
  ((quotedEnd cs).map Number.behindName).or ((Number.floatEnd cs).or (Number.integerEnd cs))

/-- The literal at the front of a text, and the rest. -/
def literal? (cs : List Char) : Option (String × List Char) :=
  (literalEnd cs).map fun rest => (String.ofList (cs.take (cs.length - rest.length)), rest)

def marks : List Char := "~!@#$%^&*-=+|;:,<.>/?'".toList

/-- Whether the text begins with a punctuation character that opens no comment. -/
def startsWithMark (cs : List Char) : Bool :=
  cs.head?.any marks.contains && !startsWith "//" cs && !startsWith "/*" cs

/-- The lifetime behind an apostrophe. Where a literal begins right behind it, the apostrophe stands alone. -/
def lifetime? (cs : List Char) : Option (Token × List Char) :=
  match word? cs with
  | none => none
  | some (name, rest) =>
    if startsWith "'" rest || (startsWith "#" rest && !startsWith "r#" cs) then none
    else if (literalEnd cs).isSome then some (.mark '\'' true, cs)
    else if literalStarts.any (startsWith · cs) then none
    else some (.lifetime name, rest)

/-- The punctuation at the front of a text, and the rest. -/
def mark? (cs : List Char) : Option (Token × List Char) :=
  match cs with
  | '\'' :: rest => lifetime? rest
  | c :: rest => if startsWithMark cs then some (.mark c (startsWithMark rest), rest) else none
  | [] => none

/-- The mark that a printer leaves for a token without a text. -/
def unprintable : String := "(/*ERROR*/)"

/-- The token at the front of a text, which is no bracket, and the rest. -/
def leaf? (cs : List Char) : Option (Token × List Char) :=
  match literal? cs with
  | some (text, rest) => some (.literal text, rest)
  | none =>
    match mark? cs with
    | some found => some found
    | none =>
      if literalStarts.any (startsWith · cs) then none
      else match word? cs with
        | some (text, rest) => some (.word text, rest)
        | none =>
          if startsWith unprintable cs then some (.literal unprintable, cs.drop unprintable.length) else none

def opened? : Char → Option Delimiter
  | '(' => some .parenthesis
  | '[' => some .bracket
  | '\x7b' => some .brace
  | _ => none

def closed? : Char → Option Delimiter
  | ')' => some .parenthesis
  | ']' => some .bracket
  | '\x7d' => some .brace
  | _ => none

/-- A bracket that is open, and the tokens in front of it in reverse. -/
abbrev Frame := Delimiter × List Token

/-- What a text reads as in front of its rest: the brackets that are open and, in reverse, the tokens behind the
last of them. -/
abbrev Progress := List Frame × List Token

/-- Reads one token, one bracket or one documenting comment off a text that begins with no blank. -/
def step (frames : List Frame) (done : List Token) (cs : List Char) : Option (Progress × List Char) :=
  match (documentation? cs).filter fun (text, _) => hasWholeLineBreaks text with
  | some (text, isInner, rest) => some ((frames, (documentationTokens text isInner).reverse ++ done), rest)
  | none =>
    match cs with
    | [] => none
    | c :: rest =>
      match if startsWith unprintable cs then none else opened? c with
      | some delimiter => some (((delimiter, done) :: frames, []), rest)
      | none =>
        match closed? c with
        | some delimiter =>
          match frames with
          | (openDelimiter, before) :: frames =>
            if openDelimiter = delimiter then
              some ((frames, .group delimiter done.reverse :: before), rest)
            else none
          | [] => none
        | none => (leaf? cs).map fun (token, rest) => ((frames, token :: done), rest)

/-- Reads a text to its end, where no bracket may be open. Every step takes a character, so the length of the text is
fuel enough. -/
def readFrom : Nat → List Frame → List Token → List Char → Option (List Token)
  | 0, frames, done, cs => if cs.isEmpty && frames.isEmpty then some done.reverse else none
  | fuel + 1, frames, done, cs =>
    match skipGaps cs with
    | [] => if frames.isEmpty then some done.reverse else none
    | cs =>
      match step frames done cs with
      | some ((frames, done), rest) => readFrom fuel frames done rest
      | none => none

end CommandBinding.Lexer

namespace CommandBinding.Token

/-- The text without the mark of its byte order, which may stand in front of it. -/
def withoutByteOrder (cs : List Char) : List Char :=
  match cs with
  | '\uFEFF' :: rest => rest
  | _ => cs

def ofText? (text : String) : Option (List Token) :=
  let cs := withoutByteOrder text.toList
  Lexer.readFrom (cs.length + 1) [] [] cs

end CommandBinding.Token
