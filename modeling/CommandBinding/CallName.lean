import CommandBinding.Unicode.Properties

/-!
The command name of a function: its words in lower case, joined by dashes. Words begin at underscores and dashes,
which are dropped, and at uppercase characters.
-/
namespace CommandBinding

/-- Whether a dash must separate the next word from a name that ends in `last`. -/
def separatesAfter (last : Option Char) : Bool :=
  last.any (· != '-')

/-- Writes the words of a name behind the character `last`. -/
def kebabFrom (last : Option Char) : List Char → List Char
  | [] => []
  | c :: rest =>
    if c == '_' || c == '-' then
      if separatesAfter last then '-' :: kebabFrom (some '-') rest else kebabFrom last rest
    else if Unicode.isUppercase c then
      let lower := Unicode.lowercase c
      (if separatesAfter last then ['-'] else []) ++ lower ++ kebabFrom (lower.getLast?.or last) rest
    else c :: kebabFrom (some c) rest

/-- The command name of the function `name`. -/
def callName (name : String) : String :=
  String.ofList (((kebabFrom none name.toList).reverse.dropWhile (· == '-')).reverse)

end CommandBinding
