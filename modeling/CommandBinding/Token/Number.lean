import CommandBinding.Unicode.Properties

/-!
Number literals. `floatEnd` and `integerEnd` read one from the front of a text and give the rest. A dot that an
identifier or another dot follows does not belong to a number, so `1.max` and `1..2` begin with an integer.
-/
namespace CommandBinding.Number

/-- The rest behind the identifier at the front, if there is one. -/
def behindName (cs : List Char) : List Char :=
  match cs with
  | c :: rest => if Unicode.isIdentifierStart c then rest.dropWhile Unicode.isIdentifierContinue else cs
  | [] => []

/-- Reads a suffix, and checks that no word goes on behind it. -/
def endsAt (cs : List Char) : Option (List Char) :=
  let rest := behindName cs
  if rest.head?.any Unicode.isIdentifierContinue then none else some rest

def isDigitOrGap (c : Char) : Bool :=
  c.isDigit || c == '_'

/-- Reads an exponent behind its letter; there must be a digit in it. -/
def exponentEnd (isSigned hasDigit : Bool) : List Char → Option (List Char)
  | [] => if hasDigit then some [] else none
  | c :: rest =>
    if c == '+' || c == '-' then
      if hasDigit then some (c :: rest) else if isSigned then none else exponentEnd true false rest
    else if c.isDigit then exponentEnd isSigned true rest
    else if c == '_' then exponentEnd isSigned hasDigit rest
    else if hasDigit then some (c :: rest) else none

/-- Reads the exponent at the front, if there is one; `fallback` stands where there is none. -/
def optionalExponent (fallback : Option (List Char)) (cs : List Char) : Option (List Char) :=
  match cs with
  | 'e' :: rest | 'E' :: rest => (exponentEnd false false rest).or fallback
  | _ => fallback

def floatDigits (cs : List Char) : Option (List Char) :=
  match cs with
  | [] => none
  | c :: rest =>
    if !c.isDigit then none
    else match rest.dropWhile isDigitOrGap with
      | '.' :: behindDot =>
        if behindDot.head?.any fun c => c == '.' || Unicode.isIdentifierStart c then none
        else
          let behind := behindDot.dropWhile isDigitOrGap
          optionalExponent (some behind) behind
      | behind => optionalExponent none behind

def floatEnd (cs : List Char) : Option (List Char) := do
  endsAt (← floatDigits cs)

/-- Reads digits of a base. A decimal digit that the base has no room for is an error, and a letter begins the
suffix. -/
def digitsEnd (base : Nat) (hasDigit : Bool) : List Char → Option (List Char)
  | [] => if hasDigit then some [] else none
  | c :: rest =>
    if c == '_' then
      if !hasDigit && base == 10 then none else digitsEnd base hasDigit rest
    else match Unicode.hexDigit? c with
      | none => if hasDigit then some (c :: rest) else none
      | some d =>
        if d < base then digitsEnd base true rest
        else if c.isDigit then none
        else if hasDigit then some (c :: rest) else none

/-- Reads the digits of an integer in the base that its beginning tells. -/
def integerDigits (cs : List Char) : Option (List Char) :=
  match cs with
  | '0' :: 'x' :: rest => digitsEnd 16 false rest
  | '0' :: 'o' :: rest => digitsEnd 8 false rest
  | '0' :: 'b' :: rest => digitsEnd 2 false rest
  | _ => digitsEnd 10 false cs

def integerEnd (cs : List Char) : Option (List Char) := do
  endsAt (← integerDigits cs)

def isFloat (text : String) : Bool :=
  match floatDigits text.toList with
  | some _ => true
  | none => false

def naturalFrom (base : Nat) (value : Nat) : List Char → Option Nat
  | [] => some value
  | c :: rest =>
    if c == '_' then naturalFrom base value rest
    else (Unicode.hexDigit? c).bind fun d => if d < base then naturalFrom base (base * value + d) rest else none

/-- The value of an integer without a suffix, in the base that its beginning tells. -/
def natural? (text : String) : Option Nat :=
  match text.toList with
  | '0' :: 'x' :: rest => naturalFrom 16 0 rest
  | '0' :: 'o' :: rest => naturalFrom 8 0 rest
  | '0' :: 'b' :: rest => naturalFrom 2 0 rest
  | cs => naturalFrom 10 0 cs

end CommandBinding.Number
