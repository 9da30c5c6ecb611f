import CommandBinding.Proofs.OperatorReading
import CommandBinding.Proofs.TokenSpacing

/-!
Lexemes that are glued. A glued text spells its lexemes exactly if each of them stands before the lexemes that are
glued behind it.
-/
namespace CommandBinding

open CodeText (gluedBehind glued isWordChar)

namespace Lexeme

variable {x : Lexeme} {xs : List Lexeme} {cs rest : List Char}

/-- Each lexeme is read as itself in front of the lexemes that are glued behind it. -/
def StandApart : List Lexeme → Prop
  | [] => True
  | x :: xs => x.StandsBefore (gluedBehind x.chars.getLast? (xs.map chars)) ∧ StandApart xs

/-- A text has the characters of the lexemes that it spells. -/
theorem count_le_of_spells (h : Spells xs cs) (c : Char) : (xs.flatMap chars).count c ≤ cs.count c := by
  induction h with
  | nil => exact Nat.le_refl _
  | gap d _ _ ih => exact ih.trans List.count_le_count_cons
  | cons _ _ ih =>
    rw [List.flatMap_cons, List.count_append, List.count_append]
    omega

/-- A lexeme that is read as itself begins neither with a space nor with the mark of the byte order. -/
theorem head_of_standsBefore (h : x.StandsBefore rest) : ∃ c more, x.chars = c :: more ∧ c ≠ ' ' ∧ c ≠ '\uFEFF' := by
  have hmarks : ∀ c ∈ Lexer.marks ++ "\"'rbc0123456789".toList, c ≠ ' ' ∧ c ≠ '\uFEFF' :=
    List.all_iff_forall_prop.mp (by decide)
  have hstart (c : Char) (hc : Unicode.isIdentifierStart c = true) : c ≠ ' ' ∧ c ≠ '\uFEFF' := by
    constructor
    · rintro rfl
      exact absurd hc (by decide)
    · rintro rfl
      exact absurd hc (by decide +kernel)
  cases x with
  | opening d => exact ⟨_, [], rfl, by cases d <;> decide⟩
  | closing d => exact ⟨_, [], rfl, by cases d <;> decide⟩
  | word text =>
    obtain ⟨hword, -⟩ := h
    obtain ⟨c, more, htext, hc⟩ := Lexer.head_of_isWord hword
    exact ⟨c, more, htext, hstart c hc⟩
  | lifetime name => exact ⟨'\'', name.toList, rfl, by decide⟩
  | literal text =>
    rcases h with hend | rfl
    · obtain ⟨first, hne, hcs⟩ := Lexer.isRest_of_literalEnd hend
      obtain rfl := List.append_cancel_right hcs
      obtain ⟨c, more, htext⟩ := List.exists_cons_of_ne_nil hne
      rw [htext, List.cons_append] at hend
      refine ⟨c, more, htext, hmarks c (List.mem_append_right _ ?_)⟩
      rcases Lexer.head_of_literalEnd hend with hc | hc
      · exact List.mem_append_left "0123456789".toList hc
      · exact List.mem_append_right ['"', '\'', 'r', 'b', 'c'] (Lexer.mem_digits hc)
    · exact ⟨'(', _, rfl, by decide⟩
  | operator marks =>
    rw [StandsBefore] at h
    split at h
    · next hquote => exact ⟨'\'', [], hquote, by decide⟩
    · obtain ⟨hmem, hop, -⟩ := h
      cases marks with
      | nil => exact absurd hop (by decide)
      | cons c more => exact ⟨c, more, rfl, hmarks c (List.mem_append_left _ (hmem c (List.mem_cons_self ..)))⟩

theorem exists_standsBefore_of_spells (h : Spells xs cs) (hx : x ∈ xs) : ∃ rest, x.StandsBefore rest := by
  induction h with
  | nil => simp at hx
  | gap _ _ _ ih => exact ih hx
  | cons hstands _ ih =>
    rcases List.mem_cons.mp hx with rfl | hx
    · exact ⟨_, hstands⟩
    · exact ih hx

/-- A text that spells lexemes begins with a blank or with the first of them. -/
theorem spells_cons_cases {c : Char} (h : Spells xs (c :: cs)) :
    (Lexer.isGap c = true ∧ Spells xs cs) ∨
      ∃ x ys rest, xs = x :: ys ∧ x.chars ++ rest = c :: cs ∧ x.StandsBefore rest ∧ Spells ys rest := by
  generalize hds : c :: cs = ds at h
  cases h with
  | nil => simp at hds
  | gap d hd h =>
    obtain ⟨rfl, rfl⟩ := List.cons.inj hds
    exact Or.inl ⟨hd, h⟩
  | @cons x ys rest hstands h => exact Or.inr ⟨x, ys, rest, rfl, rfl, hstands, h⟩

/-- A space or the mark of the byte order at the front of a text counts as a blank. -/
theorem spells_tail {c : Char} (hc : c = ' ' ∨ c = '\uFEFF') (h : Spells xs (c :: cs)) :
    Lexer.isGap c = true ∧ Spells xs cs := by
  rcases spells_cons_cases h with h | ⟨x, ys, rest, rfl, heq, hstands, -⟩
  · exact h
  · obtain ⟨d, more, hchars, hspace, hmark⟩ := head_of_standsBefore hstands
    rw [hchars] at heq
    obtain ⟨rfl, -⟩ := List.cons.inj heq
    rcases hc with hc | hc
    · exact absurd hc hspace
    · exact absurd hc hmark

theorem count_gluedBehind {c : Char} (hc : c ≠ ' ') (last : Option Char) (zs : List (List Char)) :
    (gluedBehind last zs).count c = zs.flatten.count c := by
  induction zs generalizing last with
  | nil => rfl
  | cons z zs ih =>
    have hspace : [' '].count c = 0 := List.count_eq_zero_of_not_mem (by simpa using hc)
    rw [gluedBehind, List.count_append, List.count_append, ih, List.flatten_cons, List.count_append]
    split
    · omega
    · simp

/-- A text that begins with a lexeme and has no more of its first character than the lexemes have spells them from
there on. -/
theorem standsBefore_of_spells (hrest : ∀ c ≠ ' ', rest.count c = (xs.flatMap chars).count c)
    (h : Spells (x :: xs) (x.chars ++ rest)) : x.StandsBefore rest ∧ Spells xs rest := by
  obtain ⟨behind, hbehind⟩ := exists_standsBefore_of_spells h (List.mem_cons_self ..)
  obtain ⟨c, more, hchars, hc, -⟩ := head_of_standsBefore hbehind
  rw [hchars, List.cons_append] at h
  rcases spells_cons_cases h with ⟨-, hmore⟩ | ⟨y, ys, rest', hxs, heq, hstands, hmore⟩
  · have hcount := count_le_of_spells hmore c
    rw [List.flatMap_cons, List.count_append, List.count_append, hrest c hc, hchars, List.count_cons_self] at hcount
    omega
  · obtain ⟨rfl, rfl⟩ := List.cons.inj hxs
    rw [← List.cons_append, ← hchars] at heq
    obtain rfl := List.append_cancel_left heq
    exact ⟨hstands, hmore⟩

theorem spells_gluedBehind_iff (xs : List Lexeme) (last : Option Char) :
    Spells xs (gluedBehind last (xs.map chars)) ↔ StandApart xs := by
  induction xs generalizing last with
  | nil => exact ⟨fun _ => trivial, fun _ => .nil⟩
  | cons x xs ih =>
    have hrest (c : Char) (hc : c ≠ ' ') :
        (gluedBehind x.chars.getLast? (xs.map chars)).count c = (xs.flatMap chars).count c := by
      rw [count_gluedBehind hc, List.flatMap_def]
    rw [List.map_cons, gluedBehind, List.append_assoc, StandApart, ← ih x.chars.getLast?]
    constructor
    · intro h
      refine standsBefore_of_spells hrest ?_
      split at h
      · exact (spells_tail (Or.inl rfl) h).2
      · exact h
    · rintro ⟨hstands, h⟩
      have hcons := Spells.cons hstands h
      split
      · exact .gap ' ' (by decide) hcons
      · exact hcons

theorem spells_withoutByteOrder_iff (hcs : ∀ c ≠ ' ', cs.count c = (xs.flatMap chars).count c) :
    Spells xs (Token.withoutByteOrder cs) ↔ Spells xs cs := by
  unfold Token.withoutByteOrder
  split
  · next rest =>
    constructor
    · intro h
      have hle := count_le_of_spells h '\uFEFF'
      rw [← hcs _ (by decide), List.count_cons_self] at hle
      omega
    · intro h
      have hgap := (spells_tail (Or.inr rfl) h).1
      exact absurd hgap (by decide)
  · rfl

/-! Operators and their marks are glued alike. -/

theorem gluedBehind_merge {y z : List Char} (hy : y ≠ []) (hz : ∃ c more, z = c :: more ∧ isWordChar c = false)
    (last : Option Char) (zs : List (List Char)) :
    gluedBehind last (y :: z :: zs) = gluedBehind last ((y ++ z) :: zs) := by
  obtain ⟨c, more, rfl, hc⟩ := hz
  obtain ⟨d, front, rfl⟩ := List.exists_cons_of_ne_nil hy
  have hlast : (d :: front ++ c :: more).getLast? = (c :: more).getLast? := by
    rw [List.getLast?_append, List.getLast?_eq_some_getLast (List.cons_ne_nil c more), Option.some_or]
  rw [gluedBehind, gluedBehind, gluedBehind, hlast]
  simp [hc]

variable {ps : List Piece}

theorem gluedBehind_joined (hps : ∀ p ∈ ps, p.isCopied = true) (last : Option Char) (pending : List Char) :
    gluedBehind last ((joined pending ps).map chars) =
      gluedBehind last ((pendingOperator pending).map chars ++ ps.map Piece.chars) := by
  induction ps generalizing last pending with
  | nil => rw [joined, List.map_nil, List.append_nil]
  | cons p ps ih =>
    have hmore := ih fun q hq => hps q (List.mem_cons_of_mem _ hq)
    cases p with
    | other x =>
      by_cases hne : pending = []
      · simp [joined, pendingOperator, hne, gluedBehind, hmore, Piece.chars]
      · simp [joined, pendingOperator, hne, gluedBehind, hmore, Piece.chars]
    | mark c joint =>
      have hc : isWordChar c = false := by
        have := hps _ (List.mem_cons_self ..)
        simp only [Piece.isCopied, Bool.and_eq_true, Bool.not_eq_true'] at this
        exact this.2
      have hmarks (marks : List Char) (hne : marks ≠ []) (last : Option Char) :
          gluedBehind last ((if joint then joined marks ps else .operator marks :: joined [] ps).map chars) =
            gluedBehind last (marks :: ps.map Piece.chars) := by
        cases joint with
        | true => simp [hmore, pendingOperator, hne, chars]
        | false => simp [hmore, pendingOperator, gluedBehind, chars]
      have hjoined : joined pending (.mark c joint :: ps) =
          (if isOperator (pending ++ [c]) then [] else pendingOperator pending) ++
            if joint then joined (Lexer.marksBehind pending c) ps
            else .operator (Lexer.marksBehind pending c) :: joined [] ps := by
        rw [joined]
        rfl
      rw [hjoined, Lexer.marksBehind]
      by_cases hgoes : isOperator (pending ++ [c]) = true
      · rw [if_pos hgoes, if_pos hgoes, List.nil_append, hmarks _ (by simp)]
        by_cases hne : pending = []
        · simp [hne, pendingOperator, Piece.chars]
        · have hpending : pendingOperator pending = [.operator pending] := by simp [pendingOperator, hne]
          rw [hpending]
          exact (gluedBehind_merge hne ⟨c, [], rfl, hc⟩ last _).symm
      · have hne : pending ≠ [] := by
          rintro rfl
          exact hgoes rfl
        have hpending : pendingOperator pending = [.operator pending] := by simp [pendingOperator, hne]
        rw [if_neg hgoes, if_neg hgoes, hpending, List.singleton_append, List.map_cons, gluedBehind, hmarks _ (by simp)]
        rfl

/-- The glued pieces spell their lexemes exactly if these stand apart. -/
theorem spells_glued_iff (hps : ∀ p ∈ ps, p.isCopied = true) :
    Spells (joined [] ps) (Token.withoutByteOrder (glued (ps.map Piece.chars))) ↔ StandApart (joined [] ps) := by
  have hglued : glued (ps.map Piece.chars) = gluedBehind none ((joined [] ps).map chars) :=
    (gluedBehind_joined hps none []).symm
  have hcount (c : Char) (hc : c ≠ ' ') :
      (gluedBehind none ((joined [] ps).map chars)).count c = ((joined [] ps).flatMap chars).count c := by
    rw [count_gluedBehind hc, List.flatMap_def]
  rw [hglued, spells_withoutByteOrder_iff hcount, spells_gluedBehind_iff]

end Lexeme

end CommandBinding
