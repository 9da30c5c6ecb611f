import CommandBinding.Proofs.LeafReading

/-!
Reading a whole text. `Reads ps cs` derives the pieces that a text is read as, without comments, and `build` puts
pieces together to tokens. A text that is read gives what its pieces give; and where no slash gets lost between a text
and its tokens, no comment has been left out and the text has such a derivation.
-/
namespace CommandBinding

open Lexeme

namespace Piece

def chars : Piece → List Char
  | mark c _ => [c]
  | other x => x.chars

def slashes (ps : List Piece) : Nat :=
  (ps.flatMap chars).count '/'

theorem slashes_append (ps qs : List Piece) : slashes (ps ++ qs) = slashes ps + slashes qs := by
  simp [slashes]

end Piece

namespace Lexer

open Piece (slashes)

variable {cs rest : List Char} {c : Char} {t : Token} {ps : List Piece} {frames : List Frame} {done ts : List Token}

/-- The pieces that a text is read as. -/
inductive Reads : List Piece → List Char → Prop
  | nil : Reads [] []
  | gap {ps : List Piece} {cs : List Char} (c : Char) : isGap c = true → Reads ps cs → Reads ps (c :: cs)
  | opening {ps : List Piece} {cs : List Char} (d : Delimiter) : Reads ps cs →
      Reads (.other (.opening d) :: ps) (d.openingChar :: cs)
  | closing {ps : List Piece} {cs : List Char} (d : Delimiter) : Reads ps cs →
      Reads (.other (.closing d) :: ps) (d.closingChar :: cs)
  | leaf {ps : List Piece} {cs rest : List Char} {t : Token} : leaf? cs = some (t, rest) → Reads ps rest →
      Reads (t.piecesOf ++ ps) cs

/-- Puts pieces together to tokens, behind open brackets and the tokens that have been read in them. -/
def build : List Frame → List Token → List Piece → Option (List Token)
  | frames, done, [] => if frames.isEmpty then some done.reverse else none
  | frames, done, .mark c joint :: ps => build frames (.mark c joint :: done) ps
  | frames, done, .other (.opening d) :: ps => build ((d, done) :: frames) [] ps
  | (d', before) :: frames, done, .other (.closing d) :: ps =>
    if d' = d then build frames (.group d done.reverse :: before) ps else none
  | [], _, .other (.closing _) :: _ => none
  | frames, done, .other (.word text) :: ps => build frames (.word text :: done) ps
  | frames, done, .other (.lifetime name) :: ps => build frames (.lifetime name :: done) ps
  | frames, done, .other (.literal text) :: ps => build frames (.literal text :: done) ps
  | _, _, .other (.operator _) :: _ => none

mutual

theorem build_piecesOf (t : Token) (frames : List Frame) (done : List Token) (ps : List Piece) :
    build frames done (t.piecesOf ++ ps) = build frames (t :: done) ps := by
  cases t with
  | group d inner =>
    simp only [Token.piecesOf, List.cons_append, List.append_assoc, List.nil_append]
    rw [build, build_pieces inner ((d, done) :: frames), List.append_nil, build, if_pos rfl, List.reverse_reverse]
  | _ => simp [Token.piecesOf, build]

theorem build_pieces (us : List Token) (frames : List Frame) (done : List Token) (ps : List Piece) :
    build frames done (Token.pieces us ++ ps) = build frames (us.reverse ++ done) ps := by
  cases us with
  | nil => rfl
  | cons u us =>
    rw [Token.pieces, List.append_assoc, build_piecesOf u frames done, build_pieces us frames]
    simp

end

def piecesBefore : List Frame → List Token → List Piece
  | [], done => Token.pieces done.reverse
  | (d, before) :: frames, done => piecesBefore frames before ++ .other (.opening d) :: Token.pieces done.reverse

theorem pieces_append (ts us : List Token) : Token.pieces (ts ++ us) = Token.pieces ts ++ Token.pieces us := by
  induction ts with
  | nil => rfl
  | cons t ts ih => simp [Token.pieces, ih]

theorem piecesBefore_cons (t : Token) :
    piecesBefore frames (t :: done) = piecesBefore frames done ++ t.piecesOf := by
  cases frames with
  | nil => simp [piecesBefore, pieces_append, Token.pieces]
  | cons frame frames => simp [piecesBefore, pieces_append, Token.pieces]

/-- Tokens that are put together have the pieces that they are put together from. -/
theorem pieces_of_build (h : build frames done ps = some ts) : Token.pieces ts = piecesBefore frames done ++ ps := by
  fun_induction build frames done ps with
  | case1 frames done hempty =>
    obtain rfl := List.isEmpty_iff.mp hempty
    obtain rfl := Option.some.inj h
    simp [piecesBefore]
  | case2 => simp at h
  | case3 frames done c joint ps ih => simp [ih h, piecesBefore_cons, Token.piecesOf]
  | case4 frames done d ps ih => simp [ih h, piecesBefore, Token.pieces]
  | case5 before frames done d ps ih => simp [ih h, piecesBefore_cons, Token.piecesOf, piecesBefore]
  | case6 => simp at h
  | case7 => simp at h
  | case8 frames done text ps ih => simp [ih h, piecesBefore_cons, Token.piecesOf]
  | case9 frames done name ps ih => simp [ih h, piecesBefore_cons, Token.piecesOf]
  | case10 frames done text ps ih => simp [ih h, piecesBefore_cons, Token.piecesOf]
  | case11 => simp at h

/-! Reading a text with a derivation. -/

theorem skipGapsFrom_cons (b : Char) (bound cs : List Char) : skipGapsFrom (b :: bound) cs =
    match cs with
    | [] => []
    | '/' :: '/' :: rest => if isLineDocumentation rest then cs else skipGapsFrom bound (line rest).2
    | '/' :: '*' :: rest =>
      if isBlockDocumentation rest then cs
      else match comment 1 rest with
        | some (_, behind) => skipGapsFrom bound behind
        | none => cs
    | c :: rest => if isGap c then skipGapsFrom bound rest else cs := rfl

theorem skipGaps_cons (hcomment : ¬BeginsComment (c :: cs)) :
    skipGaps (c :: cs) = if isGap c then skipGaps cs else c :: cs := by
  rw [skipGaps, skipGapsFrom_cons]
  split
  · next h => simp at h
  · next rest h => exact absurd (Or.inl ⟨rest, h.symm⟩) hcomment
  · next rest h => exact absurd (Or.inr ⟨rest, h.symm⟩) hcomment
  · next h =>
    obtain ⟨rfl, rfl⟩ := List.cons.inj h
    rfl

theorem skipGaps_cons_of_isGap (hc : isGap c = true) : skipGaps (c :: cs) = skipGaps cs := by
  have hslash : c ≠ '/' := by
    rintro rfl
    exact absurd hc (by decide)
  rw [skipGaps_cons (not_beginsComment_cons hslash), if_pos hc]

theorem documentation?_eq_none (hcomment : ¬BeginsComment cs) : documentation? cs = none := by
  unfold documentation?
  split
  · next mark rest => exact absurd (Or.inl ⟨mark :: rest, rfl⟩) hcomment
  · next mark rest => exact absurd (Or.inr ⟨mark :: rest, rfl⟩) hcomment
  · rfl

theorem step_of_leaf (h : leaf? cs = some (t, rest)) : step frames done cs = some ((frames, t :: done), rest) := by
  obtain ⟨c, more, rfl, hc⟩ := head_of_leaf? h
  rw [step, documentation?_eq_none (not_beginsComment_of_beginsLeaf hc)]
  rcases not_bracket_of_beginsLeaf hc with hunprintable | ⟨hopened, hclosed⟩
  · have hparenthesis := head_unprintable (startsWith_iff.mp hunprintable)
    have hclosed : closed? c = none := by rw [hparenthesis]; rfl
    simp [hunprintable, hclosed, h]
  · simp [hopened, hclosed, h]

theorem not_beginsComment_of_reads (h : Reads ps cs) : ¬BeginsComment cs := by
  cases h with
  | nil => simp [BeginsComment]
  | gap c hc _ =>
    apply not_beginsComment_cons
    rintro rfl
    exact absurd hc (by decide)
  | opening d _ => exact not_beginsComment_cons (by cases d <;> decide)
  | closing d _ => exact not_beginsComment_cons (by cases d <;> decide)
  | leaf hleaf _ =>
    obtain ⟨c, more, rfl, hc⟩ := head_of_leaf? hleaf
    exact not_beginsComment_of_beginsLeaf hc

theorem opened?_openingChar (d : Delimiter) : opened? d.openingChar = some d := by
  cases d <;> rfl

theorem closed?_closingChar (d : Delimiter) : closed? d.closingChar = some d := by
  cases d <;> rfl

theorem opened?_closingChar (d : Delimiter) : opened? d.closingChar = none := by
  cases d <;> rfl

theorem step_of_opening (d : Delimiter) (hcomment : ¬BeginsComment cs) :
    step frames done (d.openingChar :: cs) = some (((d, done) :: frames, []), cs) := by
  have hdocumentation : documentation? (d.openingChar :: cs) = none :=
    documentation?_eq_none (not_beginsComment_cons (by cases d <;> decide))
  have hunprintable : startsWith unprintable (d.openingChar :: cs) = false := by
    rw [← Bool.not_eq_true, startsWith_iff]
    rintro ⟨behind, heq⟩
    exact hcomment (Or.inr ⟨"ERROR*/)".toList ++ behind, (List.cons.inj heq).2⟩)
  simp [step, hdocumentation, hunprintable, opened?_openingChar]

theorem step_of_closing (d : Delimiter) :
    step frames done (d.closingChar :: cs) = match frames with
      | (d', before) :: frames =>
        if d' = d then some ((frames, .group d' done.reverse :: before), cs) else none
      | [] => none := by
  have hdocumentation : documentation? (d.closingChar :: cs) = none :=
    documentation?_eq_none (not_beginsComment_cons (by cases d <;> decide))
  simp only [step, hdocumentation, Option.filter_none, opened?_closingChar, ite_self, closed?_closingChar]
  cases frames with
  | nil => rfl
  | cons frame frames =>
    obtain ⟨d', before⟩ := frame
    by_cases hd : d' = d <;> simp [hd]

theorem not_isGap_bracket (d : Delimiter) : isGap d.openingChar = false ∧ isGap d.closingChar = false := by
  cases d <;> decide

theorem isRest_of_leaf? (h : leaf? cs = some (t, rest)) : IsRest rest cs := by
  have hread := readsAs_of_leaf? h
  cases t with
  | word text =>
    obtain ⟨rfl, hword, -⟩ := hread
    obtain ⟨c, more, htext, -⟩ := head_of_isWord hword
    exact ⟨text.toList, by simp [htext], rfl⟩
  | lifetime name =>
    obtain ⟨rfl, -⟩ := hread
    exact IsRest.of_suffix (List.suffix_append _ _) _
  | literal text =>
    obtain ⟨rfl, hend | rfl⟩ := hread
    · exact isRest_of_literalEnd hend
    · exact ⟨unprintable.toList, by decide, rfl⟩
  | mark c joint =>
    obtain ⟨rfl, -⟩ := hread
    exact IsRest.of_suffix (List.suffix_refl _) c
  | group => exact absurd hread id

theorem readFrom_of_skipGaps_nil {fuel : Nat} (h : skipGaps cs = []) :
    readFrom (fuel + 1) frames done cs = if frames.isEmpty then some done.reverse else none := by
  rw [readFrom, h]

theorem readFrom_of_skipGaps_cons {fuel : Nat} {more : List Char} (h : skipGaps cs = c :: more) :
    readFrom (fuel + 1) frames done cs =
      (step frames done (c :: more)).bind fun (progress, rest) => readFrom fuel progress.1 progress.2 rest := by
  simp only [readFrom, h]
  cases step frames done (c :: more) <;> rfl

/-- Reading a text with a derivation gives what the pieces give. -/
theorem readFrom_eq_build (h : Reads ps cs) {fuel : Nat} (hfuel : cs.length < fuel) :
    readFrom fuel frames done cs = build frames done ps := by
  -- The induction is on the derivation: each of its steps takes a character and at most one unit of fuel.
  obtain ⟨fuel, rfl⟩ : ∃ n, fuel = n + 1 := ⟨fuel - 1, by omega⟩
  induction h generalizing fuel frames done with
  | nil => rw [readFrom_of_skipGaps_nil rfl, build]
  | @gap ps cs c hc h ih =>
    rw [List.length_cons] at hfuel
    have hskip : skipGaps (c :: cs) = skipGaps cs := skipGaps_cons_of_isGap hc
    rw [← ih fuel (by omega), readFrom, readFrom, hskip]
  | @opening ps cs d h ih =>
    rw [List.length_cons] at hfuel
    obtain ⟨fuel, rfl⟩ : ∃ n, fuel = n + 1 := ⟨fuel - 1, by omega⟩
    have hcomment : ¬BeginsComment (d.openingChar :: cs) := not_beginsComment_cons (by cases d <;> decide)
    have hskip := skipGaps_cons hcomment
    rw [(not_isGap_bracket d).1] at hskip
    rw [readFrom_of_skipGaps_cons hskip, step_of_opening d (not_beginsComment_of_reads h), build]
    exact ih fuel (by omega)
  | @closing ps cs d h ih =>
    rw [List.length_cons] at hfuel
    obtain ⟨fuel, rfl⟩ : ∃ n, fuel = n + 1 := ⟨fuel - 1, by omega⟩
    have hcomment : ¬BeginsComment (d.closingChar :: cs) := not_beginsComment_cons (by cases d <;> decide)
    have hskip := skipGaps_cons hcomment
    rw [(not_isGap_bracket d).2] at hskip
    rw [readFrom_of_skipGaps_cons hskip, step_of_closing]
    cases frames with
    | nil => rfl
    | cons frame frames =>
      obtain ⟨d', before⟩ := frame
      rw [build]
      by_cases hd : d' = d
      · subst hd
        simpa using ih fuel (by omega)
      · simp [hd]
  | leaf hleaf h ih =>
    have hlength := (isRest_of_leaf? hleaf).length_lt
    obtain ⟨fuel, rfl⟩ : ∃ n, fuel = n + 1 := ⟨fuel - 1, by omega⟩
    obtain ⟨c, more, rfl, hc⟩ := head_of_leaf? hleaf
    have hskip := skipGaps_cons (not_beginsComment_of_beginsLeaf hc)
    rw [not_isGap_of_beginsLeaf hc] at hskip
    rw [readFrom_of_skipGaps_cons hskip, step_of_leaf hleaf, build_piecesOf]
    exact ih fuel (by omega)

/-! Reading a text without a derivation. -/

theorem build_of_readsAs (hleaf : ReadsAs cs rest t) : t.piecesOf.flatMap Piece.chars ++ rest = cs := by
  cases t with
  | word text =>
    obtain ⟨rfl, -⟩ := hleaf
    simp [Token.piecesOf, Piece.chars, Lexeme.chars]
  | lifetime name =>
    obtain ⟨rfl, -⟩ := hleaf
    simp [Token.piecesOf, Piece.chars, Lexeme.chars]
  | literal text =>
    obtain ⟨rfl, -⟩ := hleaf
    simp [Token.piecesOf, Piece.chars, Lexeme.chars]
  | mark c joint =>
    obtain ⟨rfl, -⟩ := hleaf
    simp [Token.piecesOf, Piece.chars]
  | group => exact absurd hleaf id

theorem count_line (cs : List Char) : (line cs).1.count '/' + (line cs).2.count '/' = cs.count '/' := by
  fun_induction line cs with
  | case1 => rfl
  | case2 rest => simp
  | case3 rest => simp
  | case4 c rest _ _ first behind heq ih =>
    rw [heq] at ih
    simp only [List.count_cons] at ih ⊢
    omega

theorem append_of_comment {depth : Nat} {text behind : List Char} (h : comment depth cs = some (text, behind)) :
    cs = text ++ behind := by
  fun_induction comment depth cs generalizing text behind with
  | case1 depth rest ih =>
    simp only [Option.map_eq_some_iff, Prod.mk.injEq, Prod.exists] at h
    obtain ⟨_, _, hread, rfl, rfl⟩ := h
    simp [ih hread]
  | case2 depth rest _ =>
    simp only [Option.some.injEq, Prod.mk.injEq] at h
    obtain ⟨rfl, rfl⟩ := h
    rfl
  | case3 depth rest _ ih =>
    simp only [Option.map_eq_some_iff, Prod.mk.injEq, Prod.exists] at h
    obtain ⟨_, _, hread, rfl, rfl⟩ := h
    simp [ih hread]
  | case4 depth c rest _ _ ih =>
    simp only [Option.map_eq_some_iff, Prod.mk.injEq, Prod.exists] at h
    obtain ⟨_, _, hread, rfl, rfl⟩ := h
    simp [ih hread]
  | case5 => simp at h

theorem count_comment {depth : Nat} {text behind : List Char} (h : comment depth cs = some (text, behind)) :
    text.count '/' + behind.count '/' = cs.count '/' := by
  rw [append_of_comment h, List.count_append]

/-- What a blank at the front of a text leaves out, has no slash; what a comment leaves out, has. -/
def SkipsTo (cs rest : List Char) : Prop :=
  (rest.count '/' = cs.count '/' ∧ ∀ ps, Reads ps rest → Reads ps cs) ∨ rest.count '/' < cs.count '/'

theorem skipsTo_skipGapsFrom (bound cs : List Char) : SkipsTo cs (skipGapsFrom bound cs) := by
  induction bound generalizing cs with
  | nil => exact Or.inl ⟨rfl, fun _ h => h⟩
  | cons b bound ih =>
    have hself : SkipsTo cs cs := Or.inl ⟨rfl, fun _ h => h⟩
    have hless {rest : List Char} (h : rest.count '/' < cs.count '/') : SkipsTo cs (skipGapsFrom bound rest) := by
      rcases ih rest with ⟨heq, -⟩ | hlt
      · exact Or.inr (by omega)
      · exact Or.inr (by omega)
    rw [skipGapsFrom_cons]
    split
    · exact hself
    · next rest =>
      split
      · exact hself
      · apply hless
        have := count_line rest
        simp only [List.count_cons_self]
        omega
    · next rest =>
      split
      · exact hself
      · split
        · next behind hcomment =>
          apply hless
          have := count_comment hcomment
          rw [List.count_cons_self]
          simp only [List.count_cons]
          omega
        · exact hself
    · next c rest _ _ =>
      split
      · next hgap =>
        have hcount : (c :: rest).count '/' = rest.count '/' := by
          refine List.count_cons_of_ne ?_
          rintro rfl
          exact absurd hgap (by decide)
        rcases ih rest with ⟨heq, hreads⟩ | hlt
        · exact Or.inl ⟨by omega, fun ps h => .gap c hgap (hreads ps h)⟩
        · exact Or.inr (by omega)
      · exact hself

theorem not_mem_hexDigits (n : Nat) : '/' ∉ Quoted.hexDigits n := by
  have hdigits : ∀ n < 16, '/' ≠ Nat.digitChar n := by decide
  unfold Quoted.hexDigits
  induction n using Nat.strongRecOn with
  | ind n ih =>
    by_cases hn : n < 16
    · rw [Nat.toDigits_of_lt_base hn, List.mem_singleton]
      exact hdigits n hn
    · rw [Nat.toDigits_of_base_le (by decide) (by omega), List.mem_append, List.mem_singleton, not_or]
      exact ⟨ih (n / 16) (by omega), hdigits (n % 16) (by omega)⟩

theorem count_writtenCharacter (c : Char) (rest : List Char) :
    (Quoted.writtenCharacter c rest).count '/' ≤ [c].count '/' := by
  unfold Quoted.writtenCharacter
  split_ifs
  · exact Nat.zero_le _
  · exact Nat.zero_le _
  · exact Nat.zero_le _
  · exact Nat.zero_le _
  · exact Nat.zero_le _
  · exact Nat.zero_le _
  · exact Nat.zero_le _
  · have hnone : '/' ∉ ['\\', 'u', '\x7b'] ++ Quoted.hexDigits c.toNat ++ ['\x7d'] := by
      simp [not_mem_hexDigits]
    rw [List.count_eq_zero_of_not_mem hnone]
    exact Nat.zero_le _
  · exact Nat.le_refl _

theorem count_writtenFrom (cs : List Char) : (Quoted.writtenFrom cs).count '/' ≤ cs.count '/' := by
  induction cs with
  | nil => exact Nat.le_refl _
  | cons c cs ih =>
    have hc := count_writtenCharacter c cs
    rw [Quoted.writtenFrom, List.count_append, ← List.singleton_append, List.count_append]
    omega

theorem slashes_documentationTokens (text : List Char) (isInner : Bool) :
    slashes (Token.pieces (documentationTokens text isInner)) ≤ text.count '/' := by
  have hwritten : (Quoted.written (String.ofList text)).toList = '"' :: (Quoted.writtenFrom text ++ ['"']) := by
    simp [Quoted.written]
  have htext := count_writtenFrom text
  cases isInner <;>
    simp [documentationTokens, Token.pieces, Token.piecesOf, slashes, Piece.chars, Lexeme.chars, hwritten,
      Delimiter.openingChar, Delimiter.closingChar, htext]

/-- A documenting comment loses slashes when it becomes an attribute. -/
theorem slashes_documentation {text : List Char} {isInner : Bool} (h : documentation? cs = some (text, isInner, rest)) :
    slashes (Token.pieces (documentationTokens text isInner)) + rest.count '/' < cs.count '/' := by
  have htokens := slashes_documentationTokens text isInner
  unfold documentation? at h
  split at h
  · next mark behind =>
    split_ifs at h
    obtain ⟨rfl, -, rfl⟩ : (line behind).1 = text ∧ (mark == '!') = isInner ∧ (line behind).2 = rest := by
      simpa using h
    have := count_line behind
    have := List.count_le_count_cons (a := '/') (b := mark) (l := behind)
    simp only [List.count_cons_self]
    omega
  · next mark behind =>
    split_ifs at h
    simp only [Option.map_eq_some_iff, Prod.mk.injEq, Prod.exists] at h
    obtain ⟨whole, _, hcomment, rfl, -, rfl⟩ := h
    have := count_comment hcomment
    have := (List.take_sublist (whole.length - 2) whole).count_le '/'
    have := List.count_le_count_cons (a := '/') (b := mark) (l := behind)
    have := List.count_le_count_cons (a := '/') (b := '*') (l := mark :: behind)
    rw [List.count_cons_self]
    omega
  · simp at h

theorem eq_openingChar {d : Delimiter} (h : opened? c = some d) : c = d.openingChar := by
  unfold opened? at h
  split at h
  · exact Option.some.inj h ▸ rfl
  · exact Option.some.inj h ▸ rfl
  · exact Option.some.inj h ▸ rfl
  · simp at h

theorem eq_closingChar {d : Delimiter} (h : closed? c = some d) : c = d.closingChar := by
  unfold closed? at h
  split at h
  · exact Option.some.inj h ▸ rfl
  · exact Option.some.inj h ▸ rfl
  · exact Option.some.inj h ▸ rfl
  · simp at h

/-- One step reads some pieces. -/
theorem exists_pieces_of_step {progress : Progress} (h : step frames done cs = some (progress, rest)) :
    ∃ qs, (∀ ps, build frames done (qs ++ ps) = build progress.1 progress.2 ps) ∧
      (slashes qs + rest.count '/' = cs.count '/' ∧ (∀ ps, Reads ps rest → Reads (qs ++ ps) cs) ∨
        slashes qs + rest.count '/' < cs.count '/') := by
  unfold step at h
  split at h
  · next text isInner behind hdocumentation =>
    obtain ⟨rfl, rfl⟩ := Prod.mk.inj (Option.some.inj h)
    obtain ⟨hdocumentation, -⟩ := Option.filter_eq_some_iff.mp hdocumentation
    refine ⟨_, fun ps => build_pieces _ _ _ ps, Or.inr (slashes_documentation hdocumentation)⟩
  · split at h
    · simp at h
    · next c behind _ =>
      split at h
      · next d hopened =>
        obtain ⟨rfl, rfl⟩ := Prod.mk.inj (Option.some.inj h)
        have hc : c = d.openingChar := by
          split_ifs at hopened
          exact eq_openingChar hopened
        subst hc
        refine ⟨[.other (.opening d)], fun ps => by rw [List.singleton_append, build], Or.inl ⟨?_, fun ps h => ?_⟩⟩
        · cases d <;> simp [slashes, Piece.chars, Lexeme.chars, Delimiter.openingChar]
        · exact .opening d h
      · split at h
        · next d hclosed =>
          obtain rfl := eq_closingChar hclosed
          split at h
          · next d' before frames =>
            split_ifs at h with hd
            subst hd
            obtain ⟨rfl, rfl⟩ := Prod.mk.inj (Option.some.inj h)
            refine ⟨[.other (.closing d')], fun ps => ?_, Or.inl ⟨?_, fun ps h => ?_⟩⟩
            · rw [List.singleton_append, build, if_pos rfl]
            · cases d' <;> simp [slashes, Piece.chars, Lexeme.chars, Delimiter.closingChar]
            · exact .closing d' h
          · simp at h
        · obtain ⟨⟨t, behind⟩, hleaf, heq⟩ := Option.map_eq_some_iff.mp h
          obtain ⟨rfl, rfl⟩ := Prod.mk.inj heq
          refine ⟨t.piecesOf, fun ps => build_piecesOf t _ _ ps, Or.inl ⟨?_, fun ps h => .leaf hleaf h⟩⟩
          rw [← build_of_readsAs (readsAs_of_leaf? hleaf), List.count_append, slashes]

/-- Reading a text gives what some pieces give. They have no more slashes than the text, and the text has a derivation
if they have as many. -/
theorem exists_build_of_readFrom {fuel : Nat} (h : readFrom fuel frames done cs = some ts) :
    ∃ ps, build frames done ps = some ts ∧ slashes ps ≤ cs.count '/' ∧ (slashes ps = cs.count '/' → Reads ps cs) := by
  -- A comment takes slashes with it, so a text that loses none has no comment to leave out.
  induction fuel generalizing frames done cs with
  | zero =>
    rw [readFrom] at h
    split_ifs at h with hempty
    simp only [Bool.and_eq_true, List.isEmpty_iff] at hempty
    obtain ⟨rfl, rfl⟩ := hempty
    exact ⟨[], by simpa [build] using h, Nat.zero_le _, fun _ => .nil⟩
  | succ fuel ih =>
    have hskips : SkipsTo cs (skipGaps cs) := skipsTo_skipGapsFrom cs cs
    cases hcs : skipGaps cs with
    | nil =>
      rw [readFrom_of_skipGaps_nil hcs] at h
      refine ⟨[], by simpa [build] using h, Nat.zero_le _, fun heq => ?_⟩
      rw [hcs] at hskips
      rcases hskips with ⟨-, hreads⟩ | hlt
      · exact hreads [] .nil
      · rw [← heq] at hlt
        exact absurd hlt (Nat.not_lt_zero _)
    | cons c more =>
      rw [readFrom_of_skipGaps_cons hcs] at h
      obtain ⟨⟨progress, rest⟩, hstep, hrest⟩ := Option.bind_eq_some_iff.mp h
      obtain ⟨ps, hbuild, hle, hreads⟩ := ih hrest
      obtain ⟨qs, hqs, hpieces⟩ := exists_pieces_of_step hstep
      rw [hcs] at hskips
      refine ⟨qs ++ ps, (hqs ps).trans hbuild, ?_, fun heq => ?_⟩
      · rw [Piece.slashes_append]
        rcases hskips with ⟨hcount, -⟩ | hlt <;> rcases hpieces with ⟨hcount', -⟩ | hlt' <;> omega
      · rw [Piece.slashes_append] at heq
        rcases hskips with ⟨hcount, hcs⟩ | hlt
        · rcases hpieces with ⟨hcount', hmore⟩ | hlt'
          · exact hcs _ (hmore ps (hreads (by omega)))
          · omega
        · rcases hpieces with ⟨hcount', -⟩ | hlt' <;> omega

end Lexer

end CommandBinding
