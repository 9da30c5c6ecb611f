import CommandBinding.Token.Lexer
import Mathlib.Tactic.Common

/-!
What readers leave of a text. A reader takes its text from the front, so the rest that it gives is an end of the text,
and a reader of literals or words takes at least one character.
-/
namespace CommandBinding

/-- The rest is a proper end of the text. -/
def IsRest (rest cs : List Char) : Prop :=
  ∃ first, first ≠ [] ∧ cs = first ++ rest

namespace IsRest

variable {rest cs : List Char} {c : Char}

theorem of_suffix (h : rest <:+ cs) (c : Char) : IsRest rest (c :: cs) := by
  obtain ⟨first, rfl⟩ := h
  exact ⟨c :: first, by simp, rfl⟩

theorem length_lt (h : IsRest rest cs) : rest.length < cs.length := by
  obtain ⟨first, hne, rfl⟩ := h
  have hlength := List.length_pos_iff.mpr hne
  rw [List.length_append]
  omega

theorem of_isRest_of_suffix {more : List Char} (h : IsRest rest cs) (hsuffix : cs <:+ more) : IsRest rest more := by
  obtain ⟨first, hne, rfl⟩ := h
  obtain ⟨before, rfl⟩ := hsuffix
  exact ⟨before ++ first, by simp [hne], by simp⟩

theorem of_suffix_of_isRest {last : List Char} (hsuffix : last <:+ rest) (h : IsRest rest cs) : IsRest last cs := by
  obtain ⟨first, hne, rfl⟩ := h
  obtain ⟨second, rfl⟩ := hsuffix
  exact ⟨first ++ second, by simp [hne], by simp⟩

theorem cons (h : IsRest rest cs) (c : Char) : IsRest rest (c :: cs) :=
  h.of_isRest_of_suffix (List.suffix_cons c cs)

end IsRest

namespace Quoted

variable {contents : Contents} {state : State} {cs rest value fence : List Char}

theorem isRest_of_read (h : read contents state cs = some (value, rest)) : IsRest rest cs := by
  induction cs generalizing state value with
  | nil => simp [read] at h
  | cons c cs ih =>
    rw [read] at h
    split at h
    · simp only [Option.some.injEq, Prod.mk.injEq] at h
      exact h.2 ▸ IsRest.of_suffix (List.suffix_refl cs) c
    · split at h
      · simp at h
      · simp only [Option.map_eq_some_iff, Prod.mk.injEq, Prod.exists] at h
        obtain ⟨_, _, hread, -, rfl⟩ := h
        exact (ih hread).cons c

theorem suffix_of_escapeEnd (h : escapeEnd contents state cs = some rest) : rest <:+ cs := by
  induction cs generalizing state with
  | nil => cases state <;> simp_all [escapeEnd]
  | cons c cs ih =>
    unfold escapeEnd at h
    split at h
    · exact Option.some.inj h ▸ List.suffix_refl _
    · simp at h
    · simp at h
    · next heq => simp at heq
    · next c' rest' _ _ _ heq =>
      obtain ⟨rfl, rfl⟩ := List.cons.inj heq
      split at h
      · simp at h
      · exact (ih h).trans (List.suffix_cons _ _)

def behindCharacter (contents : Contents) (cs : List Char) : Option (List Char) :=
  match cs with
  | '\\' :: rest => escapeEnd contents .escape rest
  | c :: rest => if contents.allows c then some rest else none
  | [] => none

theorem characterEnd_eq_some_iff :
    characterEnd contents cs = some rest ↔ behindCharacter contents cs = some ('\'' :: rest) := by
  unfold characterEnd
  extract_lets behind
  have hbehind : behind = behindCharacter contents cs := rfl
  rw [hbehind]
  split
  · next h => simp [h]
  · next h =>
    simp only [reduceCtorEq, false_iff]
    exact h rest

theorem suffix_of_behindCharacter (h : behindCharacter contents cs = some rest) : rest <:+ cs := by
  unfold behindCharacter at h
  split at h
  · exact (suffix_of_escapeEnd h).trans (List.suffix_cons _ _)
  · split at h
    · exact Option.some.inj h ▸ List.suffix_cons _ _
    · simp at h
  · simp at h

theorem isRest_of_characterEnd (h : characterEnd contents cs = some rest) : IsRest rest cs := by
  have hbehind := characterEnd_eq_some_iff.mp h
  obtain ⟨first, rfl⟩ := suffix_of_behindCharacter hbehind
  exact ⟨first ++ ['\''], by simp, by simp⟩

theorem isRest_of_readRaw (h : readRaw contents fence cs = some (value, rest)) : IsRest rest cs := by
  fun_induction readRaw contents fence cs generalizing value with
  | case1 => simp at h
  | case2 cs ih =>
    simp only [Option.map_eq_some_iff, Prod.mk.injEq, Prod.exists] at h
    obtain ⟨_, _, hread, -, rfl⟩ := h
    exact ((ih hread).cons _).cons _
  | case3 c cs _ _ =>
    simp only [Option.some.injEq, Prod.mk.injEq] at h
    exact h.2 ▸ IsRest.of_suffix (List.drop_suffix _ _) c
  | case4 => simp at h
  | case5 c cs _ _ _ ih =>
    simp only [Option.map_eq_some_iff, Prod.mk.injEq, Prod.exists] at h
    obtain ⟨_, _, hread, -, rfl⟩ := h
    exact (ih hread).cons c

theorem isRest_of_readFenced (h : readFenced contents cs = some (value, rest)) : IsRest rest cs := by
  simp only [readFenced] at h
  split at h
  · next behind hdrop =>
    split at h
    · simp at h
    · have hrest := (isRest_of_readRaw h).cons '"'
      exact (hdrop ▸ hrest).of_isRest_of_suffix (List.drop_suffix _ _)
  · simp at h

end Quoted

namespace Number

variable {base : Nat} {isSigned hasDigit : Bool} {fallback : Option (List Char)} {cs rest : List Char}

theorem suffix_behindName (cs : List Char) : behindName cs <:+ cs := by
  unfold behindName
  split
  · split
    · exact (List.dropWhile_suffix _).trans (List.suffix_cons _ _)
    · exact List.suffix_refl _
  · exact List.suffix_refl _

theorem suffix_of_endsAt (h : endsAt cs = some rest) : rest <:+ cs := by
  simp only [endsAt] at h
  split at h
  · simp at h
  · exact Option.some.inj h ▸ suffix_behindName cs

theorem suffix_of_exponentEnd (h : exponentEnd isSigned hasDigit cs = some rest) : rest <:+ cs := by
  induction cs generalizing isSigned hasDigit with
  | nil => simp_all [exponentEnd]
  | cons c cs ih =>
    rw [exponentEnd] at h
    split_ifs at h
    · exact Option.some.inj h ▸ List.suffix_refl _
    · exact (ih h).trans (List.suffix_cons _ _)
    · exact (ih h).trans (List.suffix_cons _ _)
    · exact (ih h).trans (List.suffix_cons _ _)
    · exact Option.some.inj h ▸ List.suffix_refl _

theorem suffix_of_optionalExponent (hfallback : ∀ rest, fallback = some rest → rest <:+ cs)
    (h : optionalExponent fallback cs = some rest) : rest <:+ cs := by
  unfold optionalExponent at h
  split at h
  · rcases Option.or_eq_some_iff.mp h with h | ⟨-, h⟩
    · exact (suffix_of_exponentEnd h).trans (List.suffix_cons _ _)
    · exact hfallback rest h
  · rcases Option.or_eq_some_iff.mp h with h | ⟨-, h⟩
    · exact (suffix_of_exponentEnd h).trans (List.suffix_cons _ _)
    · exact hfallback rest h
  · exact hfallback rest h

theorem isRest_of_floatDigits (h : floatDigits cs = some rest) : IsRest rest cs := by
  unfold floatDigits at h
  split at h
  · simp at h
  · next c cs =>
    split at h
    · simp at h
    · have hdigits := List.dropWhile_suffix (l := cs) isDigitOrGap
      split at h
      · next behindDot hdot =>
        split at h
        · simp at h
        · have hbehind := List.dropWhile_suffix (l := behindDot) isDigitOrGap
          have hrest := suffix_of_optionalExponent (by simp) h
          refine IsRest.of_suffix (hrest.trans (hbehind.trans ?_)) c
          exact (List.suffix_cons _ _).trans (hdot ▸ hdigits)
      · have hrest := suffix_of_optionalExponent (by simp) h
        exact IsRest.of_suffix (hrest.trans hdigits) c

theorem suffix_of_digitsEnd (h : digitsEnd base hasDigit cs = some rest) : rest <:+ cs := by
  induction cs generalizing hasDigit with
  | nil => simp_all [digitsEnd]
  | cons c cs ih =>
    rw [digitsEnd] at h
    split at h
    · split_ifs at h
      exact (ih h).trans (List.suffix_cons _ _)
    · split at h
      · split_ifs at h
        exact Option.some.inj h ▸ List.suffix_refl _
      · split_ifs at h
        · exact (ih h).trans (List.suffix_cons _ _)
        · exact Option.some.inj h ▸ List.suffix_refl _

/-- A number has a digit. -/
theorem isRest_of_digitsEnd (h : digitsEnd base false cs = some rest) : IsRest rest cs := by
  cases cs with
  | nil => simp [digitsEnd] at h
  | cons c cs =>
    rw [digitsEnd] at h
    split at h
    · split_ifs at h
      exact IsRest.of_suffix (suffix_of_digitsEnd h) c
    · split at h
      · simp at h
      · split_ifs at h
        · exact IsRest.of_suffix (suffix_of_digitsEnd h) c
        · contradiction

theorem isRest_of_integerDigits (h : integerDigits cs = some rest) : IsRest rest cs := by
  unfold integerDigits at h
  split at h
  · exact ((isRest_of_digitsEnd h).cons _).cons _
  · exact ((isRest_of_digitsEnd h).cons _).cons _
  · exact ((isRest_of_digitsEnd h).cons _).cons _
  · exact isRest_of_digitsEnd h

theorem isRest_of_floatEnd (h : floatEnd cs = some rest) : IsRest rest cs := by
  obtain ⟨behind, hdigits, hend⟩ := Option.bind_eq_some_iff.mp h
  exact .of_suffix_of_isRest (suffix_of_endsAt hend) (isRest_of_floatDigits hdigits)

theorem isRest_of_integerEnd (h : integerEnd cs = some rest) : IsRest rest cs := by
  obtain ⟨behind, hdigits, hend⟩ := Option.bind_eq_some_iff.mp h
  exact .of_suffix_of_isRest (suffix_of_endsAt hend) (isRest_of_integerDigits hdigits)

end Number

namespace Lexer

variable {cs rest : List Char}

theorem isRest_of_quotedEnd (h : quotedEnd cs = some rest) : IsRest rest cs := by
  unfold quotedEnd at h
  split at h
  · obtain ⟨⟨_, _⟩, hread, rfl⟩ := Option.map_eq_some_iff.mp h
    exact (Quoted.isRest_of_read hread).cons _
  · obtain ⟨⟨_, _⟩, hread, rfl⟩ := Option.map_eq_some_iff.mp h
    exact ((Quoted.isRest_of_read hread).cons _).cons _
  · obtain ⟨⟨_, _⟩, hread, rfl⟩ := Option.map_eq_some_iff.mp h
    exact ((Quoted.isRest_of_read hread).cons _).cons _
  · obtain ⟨⟨_, _⟩, hread, rfl⟩ := Option.map_eq_some_iff.mp h
    exact ((Quoted.isRest_of_readFenced hread).cons _).cons _
  · obtain ⟨⟨_, _⟩, hread, rfl⟩ := Option.map_eq_some_iff.mp h
    exact ((Quoted.isRest_of_readFenced hread).cons _).cons _
  · obtain ⟨⟨_, _⟩, hread, rfl⟩ := Option.map_eq_some_iff.mp h
    exact (Quoted.isRest_of_readFenced hread).cons _
  · exact ((Quoted.isRest_of_characterEnd h).cons _).cons _
  · exact (Quoted.isRest_of_characterEnd h).cons _
  · simp at h

theorem isRest_of_literalEnd (h : literalEnd cs = some rest) : IsRest rest cs := by
  rcases Option.or_eq_some_iff.mp h with h | ⟨-, h⟩
  · obtain ⟨behind, hquoted, rfl⟩ := Option.map_eq_some_iff.mp h
    exact .of_suffix_of_isRest (Number.suffix_behindName behind) (isRest_of_quotedEnd hquoted)
  · rcases Option.or_eq_some_iff.mp h with h | ⟨-, h⟩
    · exact Number.isRest_of_floatEnd h
    · exact Number.isRest_of_integerEnd h

/-- A literal is the text up to where its reader stops. -/
theorem literal?_eq_some_iff {text : String} :
    literal? cs = some (text, rest) ↔ cs = text.toList ++ rest ∧ literalEnd cs = some rest := by
  rw [literal?, Option.map_eq_some_iff]
  constructor
  · rintro ⟨behind, hend, heq⟩
    obtain ⟨rfl, rfl⟩ := Prod.mk.inj heq
    obtain ⟨first, -, rfl⟩ := isRest_of_literalEnd hend
    simp [hend]
  · rintro ⟨rfl, hend⟩
    exact ⟨rest, hend, by simp⟩

end Lexer

end CommandBinding
