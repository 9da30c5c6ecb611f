/-!
Tokens of source text. Brackets come in pairs, so a bracketed run of tokens is one token, a group, and a list of
tokens is always balanced. `Token.textOf` writes a list back with its one spacing.
-/
namespace CommandBinding

inductive Delimiter where
  | parenthesis
  | brace
  | bracket
deriving DecidableEq, Repr, Inhabited

inductive Token where
  /-- An identifier or a keyword. A raw identifier keeps its `r#`. -/
  | word (text : String)
  /-- A lifetime, without its apostrophe. -/
  | lifetime (name : String)
  /-- A punctuation character. It is `joint` if the next character of the source is another one, which makes the
  two one operator. -/
  | mark (c : Char) (joint : Bool)
  /-- A literal, as it is written in the source. -/
  | literal (text : String)
  /-- A bracketed run of tokens. -/
  | group (delimiter : Delimiter) (inner : List Token)
deriving Repr, Inhabited

namespace Delimiter

def opening : Delimiter → String
  | parenthesis => "("
  | brace => "\x7b "
  | bracket => "["

/-- What is written behind a group. An empty group in braces keeps one space. -/
def closing : Delimiter → Bool → String
  | parenthesis, _ => ")"
  | brace, isEmpty => if isEmpty then "\x7d" else " \x7d"
  | bracket, _ => "]"

def closingMark : Delimiter → String
  | parenthesis => ")"
  | brace => "\x7d"
  | bracket => "]"

end Delimiter

namespace Token

mutual

def decideEq : (t u : Token) → Decidable (t = u)
  | word a, word b | lifetime a, lifetime b | literal a, literal b =>
    if h : a = b then isTrue (by rw [h]) else isFalse (by simpa using h)
  | mark c i, mark d j => if h : c = d ∧ i = j then isTrue (by rw [h.1, h.2]) else isFalse (by simpa using h)
  | group d ts, group e us =>
    match decideListEq ts us with
    | isTrue h => if h' : d = e then isTrue (by rw [h, h']) else isFalse (by simp [h'])
    | isFalse h => isFalse (by simp [h])
  | word _, lifetime _ | word _, mark _ _ | word _, literal _ | word _, group _ _
  | lifetime _, word _ | lifetime _, mark _ _ | lifetime _, literal _ | lifetime _, group _ _
  | mark _ _, word _ | mark _ _, lifetime _ | mark _ _, literal _ | mark _ _, group _ _
  | literal _, word _ | literal _, lifetime _ | literal _, mark _ _ | literal _, group _ _
  | group _ _, word _ | group _ _, lifetime _ | group _ _, mark _ _ | group _ _, literal _ => isFalse nofun

def decideListEq : (ts us : List Token) → Decidable (ts = us)
  | [], [] => isTrue rfl
  | [], _ :: _ | _ :: _, [] => isFalse nofun
  | t :: ts, u :: us =>
    match decideEq t u, decideListEq ts us with
    | isTrue h, isTrue h' => isTrue (by rw [h, h'])
    | isFalse h, _ => isFalse (by simp [h])
    | _, isFalse h => isFalse (by simp [h])

end

instance : DecidableEq Token := decideEq

/-- Whether nothing may stand between the token and the next. -/
def isJoint : Token → Bool
  | mark _ joint => joint
  | _ => false

/-- The tokens of an operator: all its characters but the last are joint. -/
def operatorOf : List Char → List Token
  | [] => []
  | [c] => [mark c false]
  | c :: rest => mark c true :: operatorOf rest

/-- The tokens of an operator such as `::`. -/
def operator (text : String) : List Token :=
  operatorOf text.toList

mutual

def text : Token → String
  | word text => text
  | lifetime name => "'" ++ name
  | mark c _ => String.singleton c
  | literal text => text
  | group delimiter inner => delimiter.opening ++ textOf inner ++ delimiter.closing inner.isEmpty

/-- The text of a list of tokens: one space between neighbours, and none behind a joint character. -/
def textOf : List Token → String
  | [] => ""
  | token :: rest =>
    token.text ++ (if token.isJoint || rest.isEmpty then "" else " ") ++ textOf rest

end

end Token

end CommandBinding
