import CommandBinding.Finding
import CommandBinding.Words

/-!
Shadow groups: parameters of which only the one given last takes effect. A group is written as a string of
parameter names; resolution checks that every name is declared.
-/
namespace CommandBinding

/-- An element of the `shadow_groups` list of a directive. -/
inductive GroupArgument where
  /-- A string literal, by its value. -/
  | literal (text : String)
  /-- Any other expression, by its text. -/
  | expression (text : String)
deriving DecidableEq, Repr

/-- Names of parameters, of which the one given last hides the others. -/
abbrev ShadowGroup := List String

namespace ShadowGroup

/-- The group as the runtime reads it: the names with one space between them. -/
def render (group : ShadowGroup) : String :=
  " ".intercalate group

/-- The values of the arguments if all of them are string literals. -/
def literals? : List GroupArgument → Option (List String)
  | [] => some []
  | .literal text :: rest => (literals? rest).map (text :: ·)
  | .expression _ :: _ => none

theorem literals?_eq_some_iff {arguments : List GroupArgument} {texts : List String} :
    literals? arguments = some texts ↔ arguments = texts.map .literal := by
  induction arguments generalizing texts with
  | nil => cases texts <;> simp [literals?]
  | cons argument rest ih =>
    cases argument with
    | literal text =>
      cases texts with
      | nil => simp [literals?]
      | cons first texts =>
        simp only [literals?, Option.map_eq_some_iff, ih, List.map_cons, List.cons.injEq,
          GroupArgument.literal.injEq]
        grind
    | expression text => cases texts <;> simp [literals?]

/-- The words of the texts that are not among the names, ascending and without repetition. -/
def unknownWords (texts names : List String) : List String :=
  ascending ((texts.flatMap words).filter fun word => !names.contains word)

theorem mem_unknownWords {word : String} {texts names : List String} :
    word ∈ unknownWords texts names ↔ (∃ text ∈ texts, word ∈ words text) ∧ word ∉ names := by
  simp [unknownWords, mem_ascending]

def ofTexts (texts : List String) : List ShadowGroup :=
  (texts.map words).filter fun group => !group.isEmpty

/-- Resolves the arguments against the declared names. An argument that is no literal is reported first; then all
unknown names are reported together. -/
def resolve (arguments : List GroupArgument) (names : List String) : Except Finding (List ShadowGroup) :=
  match literals? arguments with
  | none => .error (.onDirective .shadowGroupsNotLiteral)
  | some texts =>
    let unknown := unknownWords texts names
    if unknown.isEmpty then .ok (ofTexts texts)
    else .error (.onDirective (.unknownShadowedNames unknown))

end ShadowGroup

end CommandBinding
