import CommandBinding.Source.Grammar.Nonterminal

/-!
Binary operators and how tightly they bind. Where one operator begins another, the longer one is tried first.
-/
namespace CommandBinding.Source

def assigningOperators : List String := ["+=", "-=", "*=", "/=", "%=", "^=", "&=", "|=", "<<=", ">>="]

/-- The other binary operators, with their precedence. -/
def plainOperators : List (String × Precedence) := [
  ("&&", .and), ("||", .or), ("<<", .shift), (">>", .shift), ("==", .compare), ("<=", .compare), ("!=", .compare),
  (">=", .compare), ("+", .sum), ("-", .sum), ("*", .product), ("/", .product), ("%", .product), ("^", .bitXor),
  ("&", .bitAnd), ("|", .bitOr), ("<", .compare), (">", .compare)]

def binaryOperators : List (String × Precedence) :=
  assigningOperators.map (·, .assign) ++ plainOperators

def binaryOperator? (tokens : List Token) : Option (String × Precedence) :=
  binaryOperators.find? fun (text, _) => atOperator text tokens

/-- Whether a lone equals sign stands in front, which assigns. -/
def atAssignment (tokens : List Token) : Bool :=
  atOperator "=" tokens && !atOperator "=>" tokens

def precedenceOf (tokens : List Token) : Precedence :=
  match binaryOperator? tokens with
  | some (_, precedence) => precedence
  | none =>
    if atAssignment tokens then .assign
    else if atOperator ".." tokens then .range
    else if atWord "as" tokens then .cast
    else .jump

def endsRange (allowsStructure : Bool) (tokens : List Token) : Bool :=
  tokens.isEmpty || (atOperator "." tokens && !atOperator ".." tokens) ||
    (!allowsStructure && atGroup .brace tokens) || atWord "as" tokens ||
    [",", ";", "?", "=>", "=", "+", "/", "%", "^", ">", "<=", "!=", "-=", "*=", "&=", "|=", "<<="].any
      (atOperator · tokens)

def beginsExpression (tokens : List Token) : Bool :=
  atAnyWord tokens || atAnyGroup tokens || atLiteral tokens || atLifetime tokens ||
    (atOperator "!" tokens && !atOperator "!=" tokens) ||
    (atOperator "-" tokens && !atOperator "-=" tokens && !atOperator "->" tokens) ||
    (atOperator "*" tokens && !atOperator "*=" tokens) ||
    (atOperator "|" tokens && !atOperator "|=" tokens) ||
    (atOperator "&" tokens && !atOperator "&=" tokens) ||
    (atOperator "<" tokens && !atOperator "<=" tokens && !atOperator "<<=" tokens) ||
    [ "..", "::", "#"].any (atOperator · tokens)

end CommandBinding.Source
