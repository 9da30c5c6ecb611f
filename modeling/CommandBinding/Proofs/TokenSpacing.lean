import CommandBinding.Proofs.PieceReading
import CommandBinding.Proofs.TightText
import Mathlib.Data.List.Chain

/-!
The text of tokens in its one spacing. Where the one spacing takes every piece of the tokens for a chunk, it glues
the characters of the pieces.
-/
namespace CommandBinding

namespace Token

/-- The characters of tokens, without the blanks between them. -/
def chars (ts : List Token) : List Char :=
  (pieces ts).flatMap Piece.chars

theorem chars_append (ts us : List Token) : chars (ts ++ us) = chars ts ++ chars us := by
  simp [chars, Lexer.pieces_append]

theorem chars_cons (t : Token) (ts : List Token) : chars (t :: ts) = chars [t] ++ chars ts :=
  chars_append [t] ts

theorem pieces_group (d : Delimiter) (inner ts : List Token) :
    pieces (group d inner :: ts) = .other (.opening d) :: (pieces inner ++ .other (.closing d) :: pieces ts) := by
  simp [pieces, piecesOf]

theorem chars_group (d : Delimiter) (inner ts : List Token) :
    chars (group d inner :: ts) = d.openingChar :: (chars inner ++ d.closingChar :: chars ts) := by
  simp [chars, pieces_group, Piece.chars, Lexeme.chars]

mutual

theorem filter_text (t : Token) :
    t.text.toList.filter (!Unicode.isBlank ·) = (chars [t]).filter (!Unicode.isBlank ·) := by
  cases t with
  | word text => simp [Token.text, chars, pieces, piecesOf, Piece.chars, Lexeme.chars]
  | lifetime name => simp [Token.text, chars, pieces, piecesOf, Piece.chars, Lexeme.chars]
  | mark c joint => simp [Token.text, chars, pieces, piecesOf, Piece.chars]
  | literal text => simp [Token.text, chars, pieces, piecesOf, Piece.chars, Lexeme.chars]
  | group d inner =>
    have hinner := filter_textOf inner
    have hopening : d.opening.toList.filter (!Unicode.isBlank ·) = [d.openingChar].filter (!Unicode.isBlank ·) := by
      cases d <;> decide
    have hclosing : (d.closing inner.isEmpty).toList.filter (!Unicode.isBlank ·) =
        [d.closingChar].filter (!Unicode.isBlank ·) := by
      cases d <;> cases inner.isEmpty <;> decide
    rw [Token.text, String.toList_append, String.toList_append, List.filter_append, List.filter_append, hopening,
      hinner, hclosing, chars_group, ← List.filter_append, ← List.filter_append]
    simp [chars, pieces]

/-- The text of tokens has their characters and blanks. -/
theorem filter_textOf (ts : List Token) :
    (textOf ts).toList.filter (!Unicode.isBlank ·) = (chars ts).filter (!Unicode.isBlank ·) := by
  cases ts with
  | nil => rfl
  | cons t ts =>
    have ht := filter_text t
    have hts := filter_textOf ts
    have hspace (stands : Bool) : (if stands then "" else " ").toList.filter (!Unicode.isBlank ·) = [] := by
      cases stands <;> decide
    rw [textOf, chars_cons, String.toList_append, String.toList_append, List.filter_append, List.filter_append, ht, hts,
      hspace, List.append_nil, List.filter_append]

end

/-- The text of tokens has their slashes. -/
theorem count_textOf (ts : List Token) : (textOf ts).toList.count '/' = Piece.slashes (pieces ts) := by
  have hslash : (!Unicode.isBlank '/') = true := by decide
  rw [← List.count_filter (p := (!Unicode.isBlank ·)) hslash, filter_textOf,
    List.count_filter (p := (!Unicode.isBlank ·)) hslash]
  rfl

end Token

namespace Piece

open CodeText (isPlain isWordChar Copies CopiesGlued Spaced gluedBehind glued)

variable {rest : List Char} {p : Piece} {ps : List Piece} {xs : List (List Char)}

/-- Whether the one spacing takes a piece for a chunk. -/
def isCopied : Piece → Bool
  | mark c _ => isPlain c && !isWordChar c
  | other (.word text) | other (.lifetime text) => text != "" && text.toList.all isPlain
  | other (.literal text) => text != "" && CodeText.isCopied .code text.toList
  | other (.opening _) | other (.closing _) => true
  | other (.operator _) => false

def MayFollow (p q : Piece) : Prop :=
  ∀ name, p = .other (.lifetime name) → q.chars.head? ≠ some '\''

/-- The one spacing takes every piece for a chunk, also when no blank stands between two of them. -/
def AreCopied (ps : List Piece) : Prop :=
  (∀ p ∈ ps, p.isCopied = true) ∧ ps.IsChain MayFollow

theorem copies_chars (h : p.isCopied = true) (hrest : ∀ name, p = .other (.lifetime name) → rest.head? ≠ some '\'') :
    Copies p.chars rest := by
  have htext {text : String} (h : text ≠ "") : text.toList ≠ [] := by simpa using h
  have hbracket (d : Delimiter) : isPlain d.openingChar = true ∧ isPlain d.closingChar = true := by
    cases d <;> decide
  cases p with
  | mark c joint =>
    simp only [isCopied, Bool.and_eq_true] at h
    exact CodeText.copies_of_isPlain (by simpa [chars] using h.1) (List.cons_ne_nil _ _) rest
  | other x =>
    cases x with
    | opening d =>
      exact CodeText.copies_of_isPlain (by simpa [chars, Lexeme.chars] using (hbracket d).1) (List.cons_ne_nil _ _) rest
    | closing d =>
      exact CodeText.copies_of_isPlain (by simpa [chars, Lexeme.chars] using (hbracket d).2) (List.cons_ne_nil _ _) rest
    | word text =>
      simp only [isCopied, Bool.and_eq_true, bne_iff_ne, List.all_eq_true] at h
      exact CodeText.copies_of_isPlain h.2 (htext h.1) rest
    | lifetime name =>
      simp only [isCopied, Bool.and_eq_true, bne_iff_ne, List.all_eq_true] at h
      exact CodeText.copies_lifetime h.2 (htext h.1) (hrest name rfl)
    | literal text =>
      simp only [isCopied, Bool.and_eq_true, bne_iff_ne] at h
      exact CodeText.copies_of_isCopied h.2 (htext h.1) rest
    | operator marks => simp [isCopied] at h

theorem copiesGlued_chars (h : AreCopied ps) : CopiesGlued (ps.map chars) := by
  obtain ⟨hcopied, hchain⟩ := h
  induction ps with
  | nil => trivial
  | cons p ps ih =>
    obtain ⟨hnext, hchain⟩ := List.isChain_cons.mp hchain
    refine ⟨copies_chars (hcopied p (List.mem_cons_self ..)) fun name hname hquote => ?_, ?_⟩
    · cases ps with
      | nil => simp [gluedBehind] at hquote
      | cons q ps =>
        have hcopies : Copies q.chars [] := copies_chars (hcopied q (by simp)) (by simp)
        obtain ⟨c, more, hchars⟩ := List.exists_cons_of_ne_nil hcopies.ne_nil
        have hc := hnext q rfl name hname
        rw [List.map_cons, gluedBehind, hchars] at hquote
        rw [hchars] at hc
        split at hquote
        · simp at hquote
        · exact hc hquote
    · exact ih (fun q hq => hcopied q (List.mem_cons_of_mem _ hq)) hchain

def IsBorder (rest : List Char) : Prop :=
  ∀ c ∈ rest.head?, isWordChar c = false ∧ c ≠ '\''

theorem isBorder_space (rest : List Char) : IsBorder (' ' :: rest) := by
  intro c hc
  obtain rfl := Option.some.inj hc
  exact ⟨by decide, by decide⟩

theorem spaced_closing (d : Delimiter) (isEmpty : Bool) (h : Spaced xs rest) :
    Spaced ([d.closingChar] :: xs) ((d.closing isEmpty).toList ++ rest) ∧
      IsBorder ((d.closing isEmpty).toList ++ rest) := by
  have hcopies : Copies [d.closingChar] rest :=
    copies_chars (p := .other (.closing d)) rfl (by simp)
  have hword : isWordChar d.closingChar = false := by cases d <;> decide
  have hspaced : Spaced ([d.closingChar] :: xs) (d.closingChar :: rest) := .cons hcopies (by simp [hword]) h
  have hcases : (d.closing isEmpty).toList = [d.closingChar] ∨ (d.closing isEmpty).toList = [' ', d.closingChar] := by
    cases d <;> cases isEmpty <;> decide
  have hquote : d.closingChar ≠ '\'' := by cases d <;> decide
  rcases hcases with heq | heq
  · rw [heq]
    exact ⟨hspaced, by simpa [IsBorder] using ⟨hword, hquote⟩⟩
  · rw [heq]
    exact ⟨.blank ' ' (by decide) (List.cons_ne_nil _ _) hspaced, isBorder_space _⟩

theorem spaced_opening (d : Delimiter) (hne : xs ≠ []) (h : Spaced xs rest) :
    Spaced ([d.openingChar] :: xs) (d.opening.toList ++ rest) := by
  have hcopies (rest : List Char) : Copies [d.openingChar] rest :=
    copies_chars (p := .other (.opening d)) rfl (by simp)
  have hword : isWordChar d.openingChar = false := by cases d <;> decide
  cases d with
  | parenthesis => exact .cons (hcopies _) (by simp [hword]) h
  | brace => exact .cons (hcopies _) (by simp [hword]) (.blank ' ' (by decide) hne h)
  | bracket => exact .cons (hcopies _) (by simp [hword]) h

theorem piecesOf_ne_nil (t : Token) : t.piecesOf ≠ [] := by
  cases t <;> simp [Token.piecesOf]

/-- A piece stands as a chunk in front of what may stand behind it. -/
theorem spaced_chars (hcopied : p.isCopied = true) (hborder : (∃ c joint, p = .mark c joint) ∨ IsBorder rest)
    (h : Spaced xs rest) : Spaced (p.chars :: xs) (p.chars ++ rest) := by
  refine .cons (copies_chars hcopied fun name hname hquote => ?_) ?_ h
  · rcases hborder with ⟨c, joint, rfl⟩ | hborder
    · simp at hname
    · exact (hborder '\'' hquote).2 rfl
  · rintro ⟨hlast, hhead⟩
    rcases hborder with ⟨c, joint, rfl⟩ | hborder
    · simp only [isCopied, Bool.and_eq_true, Bool.not_eq_true'] at hcopied
      simp [chars, hcopied.2] at hlast
    · obtain ⟨d, hd, hword⟩ := (Option.any_eq_true _ _).mp hhead
      simp [(hborder d hd).1] at hword

mutual

theorem spaced_text {ys : List (List Char)} {behind : List Char} (t : Token)
    (hcopied : ∀ p ∈ t.piecesOf, p.isCopied = true)
    (hborder : t.isJoint = false → IsBorder behind) (h : Spaced ys behind) :
    Spaced (t.piecesOf.map chars ++ ys) (t.text.toList ++ behind) := by
  cases t with
  | word text => exact spaced_chars (hcopied _ (by simp [Token.piecesOf])) (Or.inr (hborder rfl)) h
  | lifetime name =>
    have hchars : (Token.lifetime name).text.toList = (Piece.other (.lifetime name)).chars := by
      simp [Token.text, chars, Lexeme.chars]
    rw [hchars]
    exact spaced_chars (hcopied _ (by simp [Token.piecesOf])) (Or.inr (hborder rfl)) h
  | mark c joint =>
    have hchars : (Token.mark c joint).text.toList = (Piece.mark c joint).chars := by simp [Token.text, chars]
    rw [hchars]
    exact spaced_chars (hcopied _ (by simp [Token.piecesOf])) (Or.inl ⟨c, joint, rfl⟩) h
  | literal text => exact spaced_chars (hcopied _ (by simp [Token.piecesOf])) (Or.inr (hborder rfl)) h
  | group d inner =>
    obtain ⟨hclosing, hbehind⟩ := spaced_closing d inner.isEmpty h
    have hinner := spaced_textOf inner (fun p hp => hcopied p (by simp [Token.piecesOf, hp])) hbehind hclosing
    have hgroup := spaced_opening d (by simp) hinner
    have htext : (Token.group d inner).text.toList ++ behind = d.opening.toList ++
        ((Token.textOf inner).toList ++ ((d.closing inner.isEmpty).toList ++ behind)) := by
      simp [Token.text]
    have hpieces : (Token.group d inner).piecesOf.map chars ++ ys =
        [d.openingChar] :: ((Token.pieces inner).map chars ++ ([d.closingChar] :: ys)) := by
      simp [Token.piecesOf, chars, Lexeme.chars]
    rw [htext, hpieces]
    exact hgroup

/-- The text of tokens is made of the chunks that their pieces are. -/
theorem spaced_textOf {ys : List (List Char)} {behind : List Char} (ts : List Token)
    (hcopied : ∀ p ∈ Token.pieces ts, p.isCopied = true)
    (hborder : IsBorder behind) (h : Spaced ys behind) :
    Spaced ((Token.pieces ts).map chars ++ ys) ((Token.textOf ts).toList ++ behind) := by
  cases ts with
  | nil => exact h
  | cons t ts =>
    have hts := spaced_textOf ts (fun p hp => hcopied p (by simp [Token.pieces, hp])) hborder h
    have ht : ∀ p ∈ t.piecesOf, p.isCopied = true := fun p hp => hcopied p (by simp [Token.pieces, hp])
    rw [Token.pieces, List.map_append, List.append_assoc, Token.textOf, String.toList_append, String.toList_append,
      List.append_assoc, List.append_assoc]
    cases hjoint : t.isJoint with
    | true => exact spaced_text t ht (by simp [hjoint]) hts
    | false =>
      cases ts with
      | nil => exact spaced_text t ht (fun _ => hborder) hts
      | cons u us =>
        have hne : (Token.pieces (u :: us)).map chars ++ ys ≠ [] := by
          simp [Token.pieces, piecesOf_ne_nil]
        have hspace : (if (false || (u :: us).isEmpty) = true then "" else " ").toList = [' '] := by simp
        rw [hspace]
        exact spaced_text t ht (fun _ => isBorder_space _) (.blank ' ' (by decide) hne hts)

end

end Piece

/-- Where all pieces of tokens are chunks, the one spacing of their text glues them. -/
theorem Token.toList_tight_textOf {ts : List Token} (h : ∀ p ∈ Token.pieces ts, p.isCopied = true) :
    (CodeText.tight (Token.textOf ts)).toList = CodeText.glued ((Token.pieces ts).map Piece.chars) := by
  have hborder : Piece.IsBorder [] := by simp [Piece.IsBorder]
  have hspaced := Piece.spaced_textOf ts h hborder .nil
  exact CodeText.tight_of_spaced (by simpa using hspaced)

end CommandBinding
