import CommandBinding.Proofs.OperatorReading

/-!
Reading lexemes. A text that has as many slashes as some tokens is read as their lexemes exactly if it spells them.
-/
namespace CommandBinding

open Lexeme

namespace Lexer

variable {cs rest : List Char} {t : Token} {ps : List Piece} {frames : List Frame} {done ts : List Token}

/-- Whether the brackets among lexemes close behind open ones. -/
def closes : List Delimiter → List Lexeme → Bool
  | frames, [] => frames.isEmpty
  | frames, .opening d :: xs => closes (d :: frames) xs
  | d' :: frames, .closing d :: xs => d' == d && closes frames xs
  | [], .closing _ :: _ => false
  | frames, _ :: xs => closes frames xs

section Closes

variable (unclosed : List Delimiter) (pending : List Char)

theorem closes_cons {x : Lexeme} (hx : ∀ d, x ≠ .opening d ∧ x ≠ .closing d) (xs : List Lexeme) :
    closes unclosed (x :: xs) = closes unclosed xs := by
  cases x with
  | opening d => exact absurd rfl (hx d).1
  | closing d => exact absurd rfl (hx d).2
  | _ => cases unclosed <;> rfl

theorem closes_pendingOperator (xs : List Lexeme) :
    closes unclosed (pendingOperator pending ++ xs) = closes unclosed xs := by
  unfold pendingOperator
  split
  · rfl
  · exact closes_cons unclosed (by simp) xs

/-- Marks leave the brackets as they are, whatever operators they make up. -/
theorem closes_joined_mark (c : Char) (joint : Bool) (ps : List Piece) :
    ∃ marks, closes unclosed (joined pending (.mark c joint :: ps)) = closes unclosed (joined marks ps) := by
  have hfirst (xs : List Lexeme) : closes unclosed
      ((if isOperator (pending ++ [c]) then [] else pendingOperator pending) ++ xs) = closes unclosed xs := by
    split
    · rfl
    · exact closes_pendingOperator unclosed pending xs
  rw [joined]
  cases joint with
  | true => exact ⟨marksBehind pending c, hfirst _⟩
  | false => exact ⟨[], (hfirst _).trans (closes_cons unclosed (by simp) _)⟩

end Closes

/-- Pieces can be put together to tokens exactly if the brackets among their lexemes close. -/
theorem isSome_build (hps : ∀ marks, .other (.operator marks) ∉ ps) (pending : List Char) :
    (build frames done ps).isSome = closes (frames.map (·.1)) (joined pending ps) := by
  have hleaf {x : Lexeme} (frames : List Frame) (pending : List Char) (ps : List Piece)
      (hx : ∀ d, x ≠ .opening d ∧ x ≠ .closing d) :
      closes (frames.map (·.1)) (joined pending (.other x :: ps)) = closes (frames.map (·.1)) (joined [] ps) := by
    rw [joined, closes_pendingOperator, closes_cons _ hx]
  fun_induction build frames done ps generalizing pending with
  | case1 frames done hempty =>
    rw [joined, ← List.append_nil (pendingOperator pending), closes_pendingOperator]
    simp [closes, hempty]
  | case2 frames done hempty =>
    rw [joined, ← List.append_nil (pendingOperator pending), closes_pendingOperator]
    simpa [closes] using hempty
  | case3 frames done c joint ps ih =>
    obtain ⟨marks, hmarks⟩ := closes_joined_mark (frames.map (·.1)) pending c joint ps
    rw [hmarks]
    exact ih (by simpa using hps) marks
  | case4 frames done d ps ih =>
    rw [joined, closes_pendingOperator, closes]
    exact ih (by simpa using hps) []
  | case5 before frames done d ps ih =>
    rw [joined, closes_pendingOperator, List.map_cons, closes, beq_self_eq_true, Bool.true_and]
    exact ih (by simpa using hps) []
  | case6 d' before frames done d ps hd =>
    rw [joined, closes_pendingOperator, List.map_cons, closes, beq_false_of_ne hd, Bool.false_and]
    rfl
  | case7 done d ps =>
    rw [joined, closes_pendingOperator]
    rfl
  | case8 frames done text ps ih =>
    rw [hleaf frames pending ps (by simp)]
    exact ih (by simpa using hps) []
  | case9 frames done name ps ih =>
    rw [hleaf frames pending ps (by simp)]
    exact ih (by simpa using hps) []
  | case10 frames done text ps ih =>
    rw [hleaf frames pending ps (by simp)]
    exact ih (by simpa using hps) []
  | case11 frames done marks ps => exact absurd (List.mem_cons_self ..) (hps marks)

theorem not_operator_piecesOf (hread : ReadsAs cs rest t) (marks : List Char) :
    .other (.operator marks) ∉ t.piecesOf := by
  cases t with
  | group => exact absurd hread id
  | _ => simp [Token.piecesOf]

theorem not_operator_of_reads (h : Reads ps cs) (marks : List Char) : .other (.operator marks) ∉ ps := by
  induction h with
  | nil => simp
  | gap _ _ _ ih => exact ih
  | opening d _ ih => simpa using ih
  | closing d _ ih => simpa using ih
  | leaf hleaf _ ih =>
    rw [List.mem_append, not_or]
    exact ⟨not_operator_piecesOf (readsAs_of_leaf? hleaf) marks, ih⟩

theorem not_operator_of_build (h : (build frames done ps).isSome = true) (marks : List Char) :
    .other (.operator marks) ∉ ps := by
  fun_induction build frames done ps with
  | case1 => simp
  | case11 => simp at h
  | _ => simp_all

/-- Pieces that make up the same lexemes as some tokens can be put together. -/
theorem exists_build (hps : ∀ marks, .other (.operator marks) ∉ ps) (hlexemes : joined [] ps = ofTokens ts) :
    ∃ us, build [] [] ps = some us ∧ ofTokens us = ofTokens ts := by
  have hts : build [] [] (Token.pieces ts) = some ts := by
    have := build_pieces ts [] [] []
    simpa [build] using this
  have hsome : (build [] [] ps).isSome = true := by
    rw [isSome_build hps [], hlexemes, ofTokens, ← isSome_build (not_operator_of_build (by rw [hts]; rfl)) [], hts]
    rfl
  obtain ⟨us, hus⟩ := Option.isSome_iff_exists.mp hsome
  refine ⟨us, hus, ?_⟩
  have hpieces : Token.pieces us = ps := by simpa [piecesBefore, Token.pieces] using pieces_of_build hus
  rw [ofTokens, hpieces, hlexemes]

/-- Operators are made up of the characters of their marks. -/
theorem chars_joined (pending : List Char) (ps : List Piece) :
    (joined pending ps).flatMap chars = pending ++ ps.flatMap Piece.chars := by
  have hpending (pending : List Char) : (pendingOperator pending).flatMap chars = pending := by
    unfold pendingOperator
    split
    · next h => rw [List.isEmpty_iff.mp h]; rfl
    · simp [chars]
  induction ps generalizing pending with
  | nil => simp [joined, hpending]
  | cons p ps ih =>
    cases p with
    | other x => simp [joined, hpending, ih, Piece.chars]
    | mark c joint =>
      by_cases hgoes : isOperator (pending ++ [c]) = true <;> cases joint <;>
        simp [joined, hgoes, hpending, ih, Piece.chars, chars]

end Lexer

namespace Token

open Lexer

/-- A text is read as tokens with the same lexemes as others. -/
def IsReadAs (text : String) (ts : List Token) : Prop :=
  ∃ us, ofText? text = some us ∧ ofTokens us = ofTokens ts

/-- A text with the slashes of some tokens is read as their lexemes exactly if it spells them. -/
theorem isReadAs_iff_spells {text : String} {ts : List Token}
    (hslashes : (withoutByteOrder text.toList).count '/' = Piece.slashes (pieces ts)) :
    IsReadAs text ts ↔ Spells (ofTokens ts) (withoutByteOrder text.toList) := by
  constructor
  · rintro ⟨us, hread, hlexemes⟩
    obtain ⟨ps, hbuild, -, hreads⟩ := exists_build_of_readFrom hread
    have hpieces : pieces us = ps := by simpa [piecesBefore, pieces] using pieces_of_build hbuild
    have hcount : Piece.slashes (pieces us) = Piece.slashes (pieces ts) := by
      rw [Piece.slashes, Piece.slashes, ← List.nil_append (List.flatMap _ _), ← chars_joined, ← ofTokens, hlexemes,
        ofTokens, chars_joined, List.nil_append]
    rw [hpieces] at hcount
    have hspells := spells_of_reads (hreads (hcount.trans hslashes.symm)) (Or.inl rfl)
    rwa [← hpieces, ← ofTokens, hlexemes] at hspells
  · intro hspells
    obtain ⟨ps, hreads, hjoined⟩ := exists_reads_of_spells hspells
    obtain ⟨us, hbuild, hlexemes⟩ := exists_build (not_operator_of_reads hreads) hjoined
    exact ⟨us, (readFrom_eq_build hreads (Nat.lt_succ_self _)).trans hbuild, hlexemes⟩

end Token

end CommandBinding
