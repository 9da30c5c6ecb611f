import CommandBinding.Source.Name
import Mathlib.Data.Bool.AllAny
import Mathlib.Tactic.Common

/-!
Texts that spell a list of tokens. Brackets stand for themselves in a list of lexemes, and an operator is one lexeme,
which joint marks make up from left to right as long as they can. `Spells xs cs` says that the text holds the lexemes
in order with blanks between them, and that none of them would be read as something else in front of what follows.
-/
namespace CommandBinding

namespace Delimiter

def openingChar : Delimiter → Char
  | parenthesis => '('
  | brace => '\x7b'
  | bracket => '['

def closingChar : Delimiter → Char
  | parenthesis => ')'
  | brace => '\x7d'
  | bracket => ']'

end Delimiter

/-- What a text is made of between its blanks. -/
inductive Lexeme where
  | opening (delimiter : Delimiter)
  | closing (delimiter : Delimiter)
  | word (text : String)
  | lifetime (name : String)
  | literal (text : String)
  | operator (marks : List Char)
deriving DecidableEq

/-- A part of a list of tokens before operators are made up. -/
inductive Piece where
  | mark (c : Char) (joint : Bool)
  | other (x : Lexeme)
deriving DecidableEq

/-- The operators of several characters. Each begins with a shorter one or with a mark. -/
def operators : List (List Char) :=
  ["<<=", ">>=", "...", "..=", "&&", "||", "<<", ">>", "+=", "-=", "*=", "/=", "%=", "^=", "&=", "|=", "==", "!=",
    "<=", ">=", "..", "::", "->", "=>", "<-"].map (·.toList)

def isOperator (marks : List Char) : Bool :=
  marks.length == 1 || operators.contains marks

namespace Token

mutual

def piecesOf : Token → List Piece
  | word text => [.other (.word text)]
  | lifetime name => [.other (.lifetime name)]
  | mark c joint => [.mark c joint]
  | literal text => [.other (.literal text)]
  | group delimiter inner => .other (.opening delimiter) :: pieces inner ++ [.other (.closing delimiter)]

def pieces : List Token → List Piece
  | [] => []
  | token :: rest => token.piecesOf ++ pieces rest

end

end Token

namespace Lexeme

def pendingOperator (marks : List Char) : List Lexeme :=
  if marks.isEmpty then [] else [.operator marks]

/-- The lexemes of pieces behind marks that may go on as a longer operator. -/
def joined (pending : List Char) : List Piece → List Lexeme
  | [] => pendingOperator pending
  | .other x :: rest => pendingOperator pending ++ x :: joined [] rest
  | .mark c joint :: rest =>
    let goesOn := isOperator (pending ++ [c])
    let marks := if goesOn then pending ++ [c] else [c]
    (if goesOn then [] else pendingOperator pending) ++
      if joint then joined marks rest else .operator marks :: joined [] rest

def ofTokens (tokens : List Token) : List Lexeme :=
  joined [] (Token.pieces tokens)

def chars : Lexeme → List Char
  | opening delimiter => [delimiter.openingChar]
  | closing delimiter => [delimiter.closingChar]
  | word text => text.toList
  | lifetime name => '\'' :: name.toList
  | literal text => text.toList
  | operator marks => marks

/-- A word as it is written: an identifier, or the raw form of one. -/
def IsWord (text : String) : Prop :=
  Source.isIdentifier text = true ∨
    ∃ name, text = "r#" ++ name ∧ Source.isIdentifier name = true ∧ name ∉ Lexer.neverRaw

/-- No word goes on at the front of the text. -/
def EndsWord (rest : List Char) : Prop :=
  ∀ c ∈ rest.head?, Unicode.isIdentifierContinue c = false

/-- A word with the text behind it begins like a literal or a raw word. -/
def BeginsLiteral (text : String) (rest : List Char) : Prop :=
  (text = "r" ∧ rest.head? = some '#') ∨ ∃ start ∈ Lexer.literalStarts, start.toList <+: text.toList ++ rest

def BeginsComment (cs : List Char) : Prop :=
  ['/', '/'] <+: cs ∨ ['/', '*'] <+: cs

/-- A lexeme is read as itself in front of the text. -/
def StandsBefore : Lexeme → List Char → Prop
  | opening _, _ | closing _, _ => True
  | word text, rest => IsWord text ∧ EndsWord rest ∧ ¬BeginsLiteral text rest
  | lifetime name, rest =>
    IsWord name ∧ EndsWord rest ∧ ¬BeginsLiteral name rest ∧ rest.head? ≠ some '\'' ∧
      (rest.head? = some '#' → ['r', '#'] <+: name.toList)
  | literal text, rest => Lexer.literalEnd (text.toList ++ rest) = some rest ∨ text = Lexer.unprintable
  | operator marks, rest =>
    if marks = ['\''] then Lexer.leaf? ('\'' :: rest) = some (.mark '\'' true, rest)
    else (∀ c ∈ marks, c ∈ Lexer.marks) ∧ isOperator marks = true ∧ ¬BeginsComment (marks ++ rest) ∧
      ∀ longer ∈ operators, marks.length < longer.length → ¬longer <+: marks ++ rest

inductive Spells : List Lexeme → List Char → Prop
  | nil : Spells [] []
  | gap {xs : List Lexeme} {cs : List Char} (c : Char) : Lexer.isGap c = true → Spells xs cs → Spells xs (c :: cs)
  | cons {x : Lexeme} {xs : List Lexeme} {cs : List Char} : x.StandsBefore cs → Spells xs cs →
      Spells (x :: xs) (x.chars ++ cs)

end Lexeme

end CommandBinding
