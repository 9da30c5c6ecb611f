import CommandBinding.Token.Quoted
import CommandBinding.Token
import CommandBinding.Words

/-!
Pieces of generated code. `code` reads a text in which a space stands between any two tokens, so what is generated
can be written down as it is printed.
-/
namespace CommandBinding

def pieceTokens (piece : String) : List Token :=
  match piece.toList with
  | [] => []
  | c :: rest =>
    if c.isAlpha || c == '_' then [.word piece]
    else if c.isDigit then [.literal piece]
    else Token.operatorOf (c :: rest)

/-- The tokens of a text in which spaces stand between the tokens and no brackets. -/
def code (text : String) : List Token :=
  (words text).flatMap pieceTokens

def inParentheses (inner : List Token) : List Token :=
  [.group .parenthesis inner]

def inBrackets (inner : List Token) : List Token :=
  [.group .bracket inner]

def inBraces (inner : List Token) : List Token :=
  [.group .brace inner]

def stringCode (text : String) : List Token :=
  [.literal (Quoted.written text)]

def withCommas (parts : List (List Token)) : List Token :=
  [Token.mark ',' false].intercalate parts

def optionalStringCode : Option String → List Token
  | some text => code ":: std :: option :: Option :: Some" ++ inParentheses (stringCode text)
  | none => code ":: std :: option :: Option :: None"

def compileError (message : String) : List Token :=
  code ":: core :: compile_error !" ++ inBraces (stringCode message)

end CommandBinding
