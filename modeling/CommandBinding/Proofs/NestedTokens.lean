import CommandBinding.Proofs.EnclosedText
import CommandBinding.Proofs.GluedLexemes
import CommandBinding.Source.Declaration

/-!
Tokens with angle brackets in them. Angle brackets are no groups, so a list of tokens may hold some that close nothing:
the arrow of a function type ends in one. `Nested` counts the brackets that stand alone, and where none does the text
of the tokens is one argument.
-/
namespace CommandBinding

open CodeText (isOpening isClosing isOneArgument)

namespace Token

theorem pieces_angles (i j : Bool) (inner ts : List Token) : pieces (mark '<' i :: inner ++ mark '>' j :: ts) =
    .mark '<' i :: (pieces inner ++ .mark '>' j :: pieces ts) := by
  simp [pieces, Lexer.pieces_append, piecesOf]

theorem chars_angles (i j : Bool) (inner ts : List Token) :
    chars (mark '<' i :: inner ++ mark '>' j :: ts) = '<' :: (chars inner ++ '>' :: chars ts) := by
  rw [chars, pieces_angles]
  simp [chars, Piece.chars]

theorem isOneArgument_tightText (depth : Nat) (ts : List Token) :
    isOneArgument depth (Source.tightText ts).toList = isOneArgument depth (chars ts) := by
  rw [Source.tightText, CodeText.isOneArgument_tight, ← CodeText.isOneArgument_filter, filter_textOf,
    CodeText.isOneArgument_filter]

/-- A token that the one spacing copies, on one line and, unless it stands inside brackets, without a comma. -/
structure IsQuiet (inside : Bool) (t : Token) : Prop where
  copied : ∀ p ∈ t.piecesOf, p.isCopied = true
  on_one_line : '\n' ∉ chars [t]
  no_comma : inside = true ∨ ',' ∉ chars [t]

/-- Tokens in which angle brackets stand in pairs, but for some that are opened or closed alone, such as the one that ends
an arrow. Commas may stand among tokens that are `inside` other brackets. -/
inductive Nested : (inside : Bool) → (opened closed : Nat) → List Token → Prop
  | nil {inside : Bool} : Nested inside 0 0 []
  | quiet {inside : Bool} {opened closed : Nat} {t : Token} {ts : List Token} : IsQuiet inside t →
      Nested inside opened closed ts →
      Nested inside ((chars [t]).countP isOpening + opened) ((chars [t]).countP isClosing + closed) (t :: ts)
  | angles {inside i j : Bool} {opened closed opened' closed' : Nat} {ts us : List Token} :
      Nested true opened closed ts → Nested inside opened' closed' us →
      Nested inside (opened + opened') (closed + closed') (mark '<' i :: ts ++ mark '>' j :: us)
  | group {inside : Bool} {d : Delimiter} {opened closed opened' closed' : Nat} {ts us : List Token} :
      Nested (inside || d != .brace) opened closed ts → Nested inside opened' closed' us →
      Nested inside (opened + opened') (closed + closed') (group d ts :: us)

namespace Nested

variable {inside : Bool} {opened closed : Nat} {t : Token} {ts : List Token}

/-- A token without brackets changes nothing. -/
theorem skip (ht : IsQuiet inside t) (hbracket : ∀ c ∈ chars [t], isOpening c = false ∧ isClosing c = false)
    (h : Nested inside opened closed ts) : Nested inside opened closed (t :: ts) := by
  have hopening : (chars [t]).countP isOpening = 0 := List.countP_eq_zero.mpr fun c hc => by simp [(hbracket c hc).1]
  have hclosing : (chars [t]).countP isClosing = 0 := List.countP_eq_zero.mpr fun c hc => by simp [(hbracket c hc).2]
  simpa [hopening, hclosing] using Nested.quiet ht h

theorem copied (h : Nested inside opened closed ts) : ∀ p ∈ pieces ts, p.isCopied = true := by
  induction h with
  | nil => simp [pieces]
  | quiet ht _ ih => exact List.forall_mem_append.mpr ⟨ht.copied, ih⟩
  | angles _ _ ih ih' =>
    rw [pieces_angles]
    exact List.forall_mem_cons.mpr ⟨rfl, List.forall_mem_append.mpr ⟨ih, List.forall_mem_cons.mpr ⟨rfl, ih'⟩⟩⟩
  | group _ _ ih ih' =>
    rw [pieces_group]
    exact List.forall_mem_cons.mpr ⟨rfl, List.forall_mem_append.mpr ⟨ih, List.forall_mem_cons.mpr ⟨rfl, ih'⟩⟩⟩

theorem on_one_line (h : Nested inside opened closed ts) : '\n' ∉ chars ts := by
  induction h with
  | nil => simp [chars, pieces]
  | quiet ht _ ih =>
    rw [chars_cons]
    simp [ht.on_one_line, ih]
  | angles _ _ ih ih' =>
    rw [chars_angles]
    simp [ih, ih']
  | @group _ d _ _ _ _ _ _ _ _ ih ih' =>
    rw [chars_group]
    cases d <;> simp [ih, ih', Delimiter.openingChar, Delimiter.closingChar]

/-- The brackets that stand alone are what the brackets of the two kinds differ by. -/
theorem countP_chars (h : Nested inside opened closed ts) :
    (chars ts).countP isOpening + closed = (chars ts).countP isClosing + opened := by
  induction h with
  | nil => rfl
  | quiet _ _ ih =>
    rw [chars_cons, List.countP_append, List.countP_append]
    omega
  | angles _ _ ih ih' =>
    rw [chars_angles]
    simp [isOpening, isClosing] at ih ih' ⊢
    omega
  | @group _ d _ _ _ _ _ _ _ _ ih ih' =>
    rw [chars_group]
    cases d <;> simp [isOpening, isClosing, Delimiter.openingChar, Delimiter.closingChar] at ih ih' ⊢ <;> omega

/-- Tokens without brackets that stand alone leave the depth of the brackets around them as it was. -/
theorem isOneArgument_chars (h : Nested inside opened closed ts) (hopened : opened = 0) (hclosed : closed = 0)
    {depth : Nat} (hdepth : inside = true → depth ≠ 0) (rest : List Char) :
    isOneArgument depth (chars ts ++ rest) = isOneArgument depth rest := by
  -- Inside brackets, where commas may stand, the depth is positive.
  induction h generalizing depth rest with
  | nil => rfl
  | quiet ht _ ih =>
    obtain ⟨hopens, rfl⟩ := Nat.add_eq_zero_iff.mp hopened
    obtain ⟨hcloses, rfl⟩ := Nat.add_eq_zero_iff.mp hclosed
    rw [List.countP_eq_zero] at hopens hcloses
    rw [chars_cons, List.append_assoc, CodeText.isOneArgument_append_left
      (fun c hc => ⟨by simpa using hopens c hc, by simpa using hcloses c hc⟩) (ht.no_comma.imp_left hdepth)]
    exact ih rfl rfl hdepth rest
  | angles _ _ ih ih' =>
    obtain ⟨rfl, rfl⟩ := Nat.add_eq_zero_iff.mp hopened
    obtain ⟨rfl, rfl⟩ := Nat.add_eq_zero_iff.mp hclosed
    rw [chars_angles, List.cons_append, List.append_assoc, List.cons_append,
      CodeText.isOneArgument_opening (by decide), ih rfl rfl (by simp), CodeText.isOneArgument_closing (by decide)]
    exact ih' rfl rfl hdepth rest
  | @group inside d _ _ _ _ _ _ _ _ ih ih' =>
    obtain ⟨rfl, rfl⟩ := Nat.add_eq_zero_iff.mp hopened
    obtain ⟨rfl, rfl⟩ := Nat.add_eq_zero_iff.mp hclosed
    rw [chars_group, List.cons_append, List.append_assoc, List.cons_append]
    by_cases hd : d = .brace
    · subst hd
      rw [CodeText.isOneArgument_cons (by decide) (by decide) (Or.inr (by decide)), ih rfl rfl (by simpa using hdepth),
        CodeText.isOneArgument_cons (by decide) (by decide) (Or.inr (by decide))]
      exact ih' rfl rfl hdepth rest
    · have hopening : isOpening d.openingChar = true := by cases d <;> first | rfl | exact absurd rfl hd
      have hclosing : isClosing d.closingChar = true := by cases d <;> first | rfl | exact absurd rfl hd
      rw [CodeText.isOneArgument_opening hopening, ih rfl rfl (by simp), CodeText.isOneArgument_closing hclosing]
      exact ih' rfl rfl hdepth rest

end Nested

/-- Tokens that the one spacing and the count of brackets take for an argument in angle brackets. -/
structure IsArgument (ts : List Token) : Prop where
  enclosed : Source.tightText (ts ++ [mark '>' false]) = Source.tightText ts ++ ">"
  inner : CodeText.IsInner (Source.tightText ts).toList

theorem tightText_append_angle {ts : List Token} (h : ∀ p ∈ pieces ts, p.isCopied = true) :
    Source.tightText (ts ++ [mark '>' false]) = Source.tightText ts ++ ">" := by
  have hangle : ∀ p ∈ pieces (ts ++ [mark '>' false]), p.isCopied = true := by
    rw [Lexer.pieces_append]
    exact List.forall_mem_append.mpr ⟨h, List.forall_mem_singleton.mpr rfl⟩
  rw [← String.toList_inj, String.toList_append, Source.tightText, Source.tightText, toList_tight_textOf hangle,
    toList_tight_textOf h, Lexer.pieces_append, List.map_append]
  exact CodeText.gluedBehind_append_mark (by decide) none _ []

/-- The tokens of an argument open and close brackets equally often. -/
theorem Nested.opened_eq_closed {opened closed : Nat} {ts : List Token} (h : Nested false opened closed ts)
    (hargument : IsArgument ts) : opened = closed := by
  have hcount := CodeText.countP_of_isOneArgument (isOneArgument_tightText 0 ts ▸ hargument.inner.one_argument)
  have hchars := h.countP_chars
  omega

/-- Tokens in which no bracket stands alone are an argument. -/
theorem Nested.isArgument {ts : List Token} (h : Nested false 0 0 ts) (hne : ts ≠ []) : IsArgument ts where
  enclosed := tightText_append_angle h.copied
  inner := by
    have hcopied := h.copied
    refine ⟨?_, ?_, ?_⟩
    · obtain ⟨t, us, rfl⟩ := List.exists_cons_of_ne_nil hne
      obtain ⟨p, ps, hpieces⟩ := List.exists_cons_of_ne_nil (Piece.piecesOf_ne_nil t)
      have hcopies : CodeText.Copies p.chars [] := Piece.copies_chars (hcopied p (by simp [pieces, hpieces])) (by simp)
      rw [Source.tightText, toList_tight_textOf hcopied, pieces, hpieces]
      simp [CodeText.glued, CodeText.gluedBehind, hcopies.ne_nil]
    · rw [Source.tightText, toList_tight_textOf hcopied, ← List.count_eq_zero, CodeText.glued,
        Lexeme.count_gluedBehind (by decide), List.count_eq_zero]
      exact h.on_one_line
    · have hclosed : isOneArgument 0 (chars ts ++ []) = isOneArgument 0 [] :=
        h.isOneArgument_chars rfl rfl (by simp) []
      rw [isOneArgument_tightText, ← List.append_nil (chars ts), hclosed]
      rfl

end Token

end CommandBinding
