import CommandBinding.Source.Parser

/-!
The parts of the grammar that contain each other. Every rule takes the parser of these parts as an argument; the
bound on the depth of a parse is set where the rules are tied together.
-/
namespace CommandBinding.Source

/-- How tightly an operator binds, from the loosest on. -/
inductive Precedence where
  | jump
  | assign
  | range
  | or
  | and
  | condition
  | compare
  | bitOr
  | bitXor
  | bitAnd
  | shift
  | sum
  | product
  | cast
deriving DecidableEq, Repr, Inhabited

namespace Precedence

def rank : Precedence → Nat
  | jump => 0
  | assign => 1
  | range => 2
  | or => 3
  | and => 4
  | condition => 5
  | compare => 6
  | bitOr => 7
  | bitXor => 8
  | bitAnd => 9
  | shift => 10
  | sum => 11
  | product => 12
  | cast => 13

/-- Whether `p` binds at least as tightly as `q`. -/
def atLeast (p q : Precedence) : Bool :=
  q.rank ≤ p.rank

/-- Whether `p` binds more tightly than `q`. -/
def above (p q : Precedence) : Bool :=
  q.rank < p.rank

end Precedence

inductive Nonterminal where
  /-- A type; several bounds joined by `+` stand only where `allowsPlus`. -/
  | type (allowsPlus : Bool)
  /-- An argument in angle brackets; a lifetime is a leaf. -/
  | genericArgument
  /-- Generic parameters behind `for`. -/
  | binder
  /-- A pattern without alternatives. -/
  | pattern
  /-- An expression up to the first binary operator; a name in front of a brace is a structure only where
  `allowsStructure`. -/
  | operand (allowsStructure : Bool)
  /-- What binary operators of at least the precedence `base` make of the operand `left`. -/
  | operation (left : Tree) (base : Precedence) (allowsStructure : Bool)
  /-- An expression that ends where a statement or a match arm may end. -/
  | earlyExpression
  /-- The statements up to the end of a block. -/
  | statements
  /-- An item of a file, a module or a block. -/
  | item
  /-- The fields of a structure in braces. -/
  | fields
  /-- A tree of imports. -/
  | useTree (allowsRoot : Bool)

abbrev Recur := Nonterminal → Parser Tree

namespace Recur

variable (rec : Recur)

def expression (allowsStructure : Bool) : Parser Tree := do
  rec (.operation (← rec (.operand allowsStructure)) .jump allowsStructure)

/-- A type, with bounds joined by `+`. -/
def anyType : Parser Tree :=
  rec (.type true)

end Recur

end CommandBinding.Source
