import CommandBinding.Token.Lexer

/-!
Names. A name is an identifier that is not reserved; a reserved word becomes a name when it is written raw, with
`r#` in front of it.
-/
namespace CommandBinding.Source

def reservedWords : List String := [
  "_", "abstract", "as", "async", "await", "become", "box", "break", "const", "continue", "crate", "do", "dyn",
  "else", "enum", "extern", "false", "final", "fn", "for", "if", "impl", "in", "let", "loop", "macro", "match",
  "mod", "move", "mut", "override", "priv", "pub", "ref", "return", "Self", "self", "static", "struct", "super",
  "trait", "true", "try", "type", "typeof", "unsafe", "unsized", "use", "virtual", "where", "while", "yield"]

/-- Whether a text is an identifier, reserved or not. -/
def isIdentifier (text : String) : Bool :=
  match text.toList with
  | [] => false
  | c :: rest => Unicode.isIdentifierStart c && rest.all Unicode.isIdentifierContinue

/-- A word without the `r#` of its raw form. -/
def unraw (word : String) : String :=
  match word.toList with
  | 'r' :: '#' :: rest => String.ofList rest
  | _ => word

def hasRawForm (word : String) : Bool :=
  isIdentifier word && !Lexer.neverRaw.contains word

def isName (word : String) : Bool :=
  match word.toList with
  | 'r' :: '#' :: rest => hasRawForm (String.ofList rest)
  | _ => isIdentifier word && !reservedWords.contains word

structure Name where
  text : String
  text_isName : isName text = true
deriving DecidableEq, Repr

namespace Name

def ofWord? (word : String) : Option Name :=
  if h : isName word = true then some ⟨word, h⟩ else none

def plain (name : Name) : String :=
  unraw name.text

/-- The name that a text is, or reads as. -/
def read? (text : String) : Option Name :=
  match ofWord? text, Token.ofText? text with
  | some name, _ => some name
  | none, some [.word word] => ofWord? word
  | none, _ => none

/-- The name for a text: the name it is, and else its raw form. -/
def ofText? (text : String) : Option Name :=
  match read? text with
  | some name => some name
  | none => ofWord? ("r#" ++ text)

def token (name : Name) : Token :=
  .word name.text

end Name

end CommandBinding.Source
