import CommandBinding.Source.Grammar

/-!
Source files. A file holds attributes of its own and then items. A byte order mark and a line that names an
interpreter may stand in front.
-/
namespace CommandBinding.Source

open CommandBinding.Source.Parser

/-- The text behind a first line that names an interpreter. What begins like the attribute of a file is none. -/
def withoutInterpreter (cs : List Char) : List Char :=
  match cs with
  | '#' :: '!' :: rest =>
    if (Lexer.skipGaps rest).head? == some '[' then cs else cs.dropWhile (· != '\n')
  | _ => cs

def Recur.file (rec : Recur) : Parser Trees := do
  let attributes ← rec.innerAttributes
  return attributes ++ (← toEnd do return [← rec .item])

def parseFile (text : String) : Except ParseError Trees :=
  parseSource (·.file) (String.ofList (withoutInterpreter (Token.withoutByteOrder text.toList)))

end CommandBinding.Source
