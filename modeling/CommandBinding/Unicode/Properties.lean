import CommandBinding.Unicode.AlphanumericTable
import CommandBinding.Unicode.IdentifierStartTable
import CommandBinding.Unicode.IdentifierContinueTable
import CommandBinding.Unicode.UnprintedTable
import CommandBinding.Unicode.UppercaseTable

/-!
Character properties that the rules of this library mention, as Unicode 17.0 assigns them. Each test answers
ASCII directly and looks every other character up in the table of its property.
-/
namespace CommandBinding.Unicode

/-- Whether `n` lies in one of the closed ranges `ranges[lo], …, ranges[hi - 1]`, which ascend. Each step
halves the part that is left, so `steps` need not exceed the binary length of `hi - lo`. -/
def inRangesBetween (ranges : Array (Nat × Nat)) (n : Nat) : Nat → Nat → Nat → Bool
  | 0, _, _ => false
  | steps + 1, lo, hi =>
    if lo < hi then
      let mid := (lo + hi) / 2
      match ranges[mid]? with
      | none => false
      | some (first, last) =>
        if n < first then inRangesBetween ranges n steps lo mid
        else if last < n then inRangesBetween ranges n steps (mid + 1) hi
        else true
    else false

/-- Whether `n` lies in one of the ascending closed `ranges`. -/
def inRanges (ranges : Array (Nat × Nat)) (n : Nat) : Bool :=
  inRangesBetween ranges n (ranges.size.log2 + 2) 0 ranges.size

/-- The property `White_Space`. -/
def isBlank (c : Char) : Bool :=
  let n := c.toNat
  n == 32 || (9 ≤ n && n ≤ 13) || n == 0x85 || n == 0xa0 || n == 0x1680 ||
    (0x2000 ≤ n && n ≤ 0x200a) || n == 0x2028 || n == 0x2029 || n == 0x202f || n == 0x205f || n == 0x3000

/-- Alphabetic, or a number of any kind. -/
def isAlphanumeric (c : Char) : Bool :=
  if c.toNat < 128 then c.isAlphanum else inRanges alphanumericRanges c.toNat

def hexDigit? (c : Char) : Option Nat :=
  if c.isDigit then some (c.toNat - '0'.toNat)
  else if 'a' ≤ c && c ≤ 'f' then some (c.toNat - 'a'.toNat + 10)
  else if 'A' ≤ c && c ≤ 'F' then some (c.toNat - 'A'.toNat + 10)
  else none

/-- May begin an identifier, by `XID_Start`, or is the underscore. -/
def isIdentifierStart (c : Char) : Bool :=
  if c.toNat < 128 then c.isAlpha || c == '_' else inRanges identifierStartRanges c.toNat

/-- May continue an identifier, by `XID_Continue`. -/
def isIdentifierContinue (c : Char) : Bool :=
  if c.toNat < 128 then c.isAlphanum || c == '_' else inRanges identifierContinueRanges c.toNat

def isUnprinted (c : Char) : Bool :=
  if c.toNat < 128 then c.toNat < 32 || c.toNat == 127 else inRanges unprintedRanges c.toNat

/-- Whether the run holds the code point `n`. -/
def CaseRun.holds (r : CaseRun) (n : Nat) : Bool :=
  r.first ≤ n && n ≤ r.last && (n - r.first) % r.step == 0

def caseRun? (n : Nat) : Option CaseRun :=
  uppercaseRuns.find? (·.holds n)

/-- The property `Uppercase`. -/
def isUppercase (c : Char) : Bool :=
  if c.toNat < 128 then c.isUpper else c == 'İ' || (caseRun? c.toNat).isSome

/-- The full lower case of a character: itself where it has none, two characters for U+0130. -/
def lowercase (c : Char) : List Char :=
  if c.toNat < 128 then [c.toLower]
  else if c == 'İ' then ['i', Char.ofNat 0x307]
  else match caseRun? c.toNat with
    | some r => [Char.ofNat (Int.ofNat c.toNat + r.shift).toNat]
    | none => [c]

end CommandBinding.Unicode
