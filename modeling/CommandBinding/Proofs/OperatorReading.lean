import CommandBinding.Proofs.PieceReading

/-!
Operators between pieces. A text has a derivation as pieces exactly if it spells the lexemes that the pieces make up:
marks that touch are joint, and from left to right they make up the operators that stand in the text.
-/
namespace CommandBinding.Lexer

open Lexeme

variable {cs rest more pending marks' : List Char} {c d : Char} {ps : List Piece} {t : Token} {x : Lexeme}

theorem isOperator_singleton (c : Char) : isOperator [c] = true := rfl

/-- What begins an operator is one. -/
theorem isOperator_of_isPrefix {op : List Char} (hop : op ∈ operators) (hne : marks' ≠ []) (h : marks' <+: op) :
    isOperator marks' = true := by
  have hall : ∀ op ∈ operators, ∀ k < 4, isOperator (op.take (k + 1)) = true ∧ op.length ≤ 3 := by decide
  have hlength := List.length_pos_iff.mpr hne
  have hle := h.length_le
  have hthree := (hall op hop 0 (by omega)).2
  have htake := (hall op hop (marks'.length - 1) (by omega)).1
  rwa [Nat.sub_add_cancel hlength, ← List.prefix_iff_eq_take.mp h] at htake

theorem mem_operators_of_isOperator (h : isOperator marks' = true) (hlength : 2 ≤ marks'.length) :
    marks' ∈ operators := by
  have hne : marks'.length ≠ 1 := by omega
  simpa [isOperator, hne] using h

/-- The characters of operators of several characters are marks, and neither an apostrophe nor, behind the first, a
slash. -/
theorem mem_marks_of_mem_operators {op : List Char} (hop : op ∈ operators) (hd : d ∈ op) : d ∈ marks ∧ d ≠ '\'' := by
  have hall : ∀ op ∈ operators, op.all (fun d => marks.contains d && d != '\'') = true := by decide
  simpa using List.all_eq_true.mp (hall op hop) d hd

theorem quote_not_mem_of_isOperator (h : isOperator marks' = true) (hne : marks' ≠ ['\'']) : '\'' ∉ marks' := by
  intro hmem
  have hpos := List.length_pos_of_mem hmem
  by_cases hlength : marks'.length = 1
  · obtain ⟨c, rfl⟩ := List.length_eq_one_iff.mp hlength
    obtain rfl := List.mem_singleton.mp hmem
    exact hne rfl
  · exact (mem_marks_of_mem_operators (mem_operators_of_isOperator h (by omega)) hmem).2 rfl

theorem isOperator_concat_eq_false (hne : pending ≠ []) (hd : d ∉ marks ∨ d = '\'') :
    isOperator (pending ++ [d]) = false := by
  rw [← Bool.not_eq_true]
  intro h
  have hlength := List.length_pos_iff.mpr hne
  have hop := mem_operators_of_isOperator h (by simp; omega)
  have hmark := mem_marks_of_mem_operators hop (d := d) (by simp)
  rcases hd with hd | hd
  · exact hd hmark.1
  · exact hmark.2 hd

/-- Where marks do not go on as an operator, no longer operator begins with them. -/
theorem not_longer (h : ∀ d ∈ rest.head?, isOperator (marks' ++ [d]) = false) :
    ∀ longer ∈ operators, marks'.length < longer.length → ¬longer <+: marks' ++ rest := by
  intro longer hop hlength hprefix
  have hmarks : marks' <+: longer := List.prefix_of_prefix_length_le (List.prefix_append _ _) hprefix (by omega)
  obtain ⟨behind, rfl⟩ := hmarks
  cases behind with
  | nil => simp at hlength
  | cons d behind =>
    have hrest : d :: behind <+: rest := by simpa [List.prefix_append_right_inj] using hprefix
    obtain ⟨after, rfl⟩ := hrest
    have hnot := h d (by simp)
    rw [isOperator_of_isPrefix hop (by simp) ⟨behind, by simp⟩] at hnot
    simp at hnot

/-- Where no mark follows, no operator goes on. -/
theorem not_longer_of_reads (hop : isOperator marks' = true) (hreads : Reads ps rest)
    (hrest : startsWithMark rest = false) :
    ∀ longer ∈ operators, marks'.length < longer.length → ¬longer <+: marks' ++ rest := by
  refine not_longer fun d hd => ?_
  obtain ⟨more, rfl⟩ := List.head?_eq_some_iff.mp hd
  have hmem : d ∉ marks := by
    intro hmem
    rw [startsWithMark_cons_iff.mpr ⟨hmem, not_beginsComment_of_reads hreads⟩] at hrest
    simp at hrest
  refine isOperator_concat_eq_false ?_ (Or.inl hmem)
  rintro rfl
  exact absurd hop (by decide)

/-- Marks that have been read and may go on as a longer operator. -/
def MayGoOn (pending cs : List Char) : Prop :=
  pending = [] ∨ pending = ['\''] ∧ leaf? ('\'' :: cs) = some (.mark '\'' true, cs) ∨
    (∀ c ∈ pending, c ∈ marks) ∧ pending ≠ ['\''] ∧ isOperator pending = true ∧ ¬BeginsComment (pending ++ cs) ∧
      startsWithMark cs = true

/-- Marks that do not go on are an operator. -/
theorem spells_pending {xs : List Lexeme} (h : MayGoOn pending cs)
    (hnot : ∀ d ∈ cs.head?, pending ≠ [] → isOperator (pending ++ [d]) = false) (hspells : Spells xs cs) :
    Spells (pendingOperator pending ++ xs) (pending ++ cs) := by
  rcases h with rfl | ⟨rfl, hquote⟩ | ⟨hmarks, hquote, hop, hcomment, -⟩
  · exact hspells
  · exact .cons (by simpa [StandsBefore] using hquote) hspells
  · have hne : pending ≠ [] := by
      rintro rfl
      simp [isOperator, operators] at hop
    have hstands : (Lexeme.operator pending).StandsBefore cs := by
      rw [StandsBefore, if_neg hquote]
      exact ⟨hmarks, hop, hcomment, not_longer fun d hd => hnot d hd hne⟩
    have hlexeme : pendingOperator pending = [.operator pending] := by simp [pendingOperator, hne]
    rw [hlexeme]
    exact .cons hstands hspells

/-- Behind marks that may go on stands a mark or a word. -/
theorem eq_nil_of_mayGoOn (h : MayGoOn pending (c :: cs)) (hstart : Unicode.isIdentifierStart c = false)
    (hmark : c ∉ marks) : pending = [] := by
  rcases h with rfl | ⟨rfl, hquote⟩ | ⟨-, -, -, -, hstarts⟩
  · rfl
  · rcases readsAs_of_leaf? hquote with ⟨-, h⟩
    have hlifetime : lifetime? (c :: cs) = some (.mark '\'' true, c :: cs) := by
      rcases leaf?_cases hquote with ⟨_, h, -⟩ | ⟨-, h⟩ | ⟨_, h, -⟩ | ⟨h, -⟩
      · simp at h
      · simpa [mark?] using h
      · simp at h
      · simp at h
    unfold lifetime? at hlifetime
    split at hlifetime
    · simp at hlifetime
    · next text behind hword =>
      obtain ⟨hcs, hname, -⟩ := word?_eq_some_iff.mp hword
      obtain ⟨d, more, htext, hd⟩ := head_of_isWord hname
      rw [htext] at hcs
      obtain ⟨rfl, -⟩ := List.cons.inj hcs
      simp [hstart] at hd
  · exact absurd (startsWithMark_cons_iff.mp hstarts).1 hmark

theorem not_mark_bracket (d : Delimiter) :
    (Unicode.isIdentifierStart d.openingChar = false ∧ d.openingChar ∉ marks) ∧
      Unicode.isIdentifierStart d.closingChar = false ∧ d.closingChar ∉ marks := by
  cases d <;> decide

/-- No token but a mark begins like one. -/
theorem head_of_unmarked (h : ReadsAs cs rest t) (ht : ∀ c joint, t ≠ .mark c joint) :
    ∀ d ∈ cs.head?, d ∉ marks ∨ d = '\'' := by
  intro d hd
  obtain ⟨more, rfl⟩ := List.head?_eq_some_iff.mp hd
  cases t with
  | word text =>
    obtain ⟨hcs, hword, -⟩ := h
    obtain ⟨c, more', htext, hc⟩ := head_of_isWord hword
    rw [htext] at hcs
    obtain ⟨rfl, -⟩ := List.cons.inj hcs
    refine Or.inl fun hmem => ?_
    simp [not_isIdentifierStart_of_mem (List.mem_append_left _ hmem)] at hc
  | lifetime name =>
    obtain ⟨hcs, -⟩ := h
    exact Or.inr (List.cons.inj hcs).1
  | literal text =>
    obtain ⟨hcs, hend | rfl⟩ := h
    · have hletters : ∀ d ∈ ['"', 'r', 'b', 'c'] ++ "0123456789".toList, d ∉ marks :=
        List.all_iff_forall_prop.mp (by decide)
      rw [← hcs] at hend
      rcases head_of_literalEnd hend with hd | hd
      · by_cases hquote : d = '\''
        · exact Or.inr hquote
        · exact Or.inl (hletters d (List.mem_append_left _ (by simp_all)))
      · exact Or.inl (hletters d (List.mem_append_right _ (mem_digits hd)))
    · obtain ⟨rfl, -⟩ := List.cons.inj hcs
      exact Or.inl (by decide)
  | mark c joint => exact absurd rfl (ht c joint)
  | group => exact absurd h id

def marksBehind (pending : List Char) (c : Char) : List Char :=
  if isOperator (pending ++ [c]) then pending ++ [c] else [c]

/-- One more mark goes on as an operator, or begins one behind the operator that has been read. -/
theorem spells_mark {xs : List Lexeme} (h : MayGoOn pending (c :: cs))
    (hspells : Spells xs (marksBehind pending c ++ cs)) :
    Spells ((if isOperator (pending ++ [c]) then [] else pendingOperator pending) ++ xs) (pending ++ c :: cs) := by
  by_cases hgoes : isOperator (pending ++ [c]) = true
  · rw [marksBehind, if_pos hgoes, List.append_assoc] at hspells
    rwa [if_pos hgoes]
  · rw [marksBehind, if_neg hgoes] at hspells
    rw [if_neg hgoes]
    refine spells_pending h ?_ hspells
    rintro d hd -
    obtain rfl := Option.some.inj hd
    exact Bool.not_eq_true _ ▸ hgoes

/-- What has been read stays an operator outside comments when one more mark has been. -/
theorem operator_marksBehind (h : MayGoOn pending (c :: cs)) (hmem : c ∈ marks) (hc : c ≠ '\'')
    (hcomment : ¬BeginsComment (c :: cs)) :
    (∀ d ∈ marksBehind pending c, d ∈ marks) ∧ marksBehind pending c ≠ ['\''] ∧
      isOperator (marksBehind pending c) = true ∧ ¬BeginsComment (marksBehind pending c ++ cs) := by
  by_cases hgoes : isOperator (pending ++ [c]) = true
  · rw [marksBehind, if_pos hgoes]
    rcases h with rfl | ⟨rfl, -⟩ | ⟨hmarks, -, -, hcomments, -⟩
    · exact ⟨by simpa using hmem, by simpa using hc, hgoes, hcomment⟩
    · exact absurd (by simp) (quote_not_mem_of_isOperator hgoes (by simp))
    · refine ⟨?_, ?_, hgoes, by simpa using hcomments⟩
      · simpa [or_imp, forall_and] using ⟨hmarks, hmem⟩
      · intro heq
        obtain ⟨rfl, hlast⟩ := List.append_eq_singleton_iff.mp heq |>.resolve_right (by simp)
        exact hc (List.cons.inj hlast).1
  · rw [marksBehind, if_neg hgoes]
    exact ⟨by simpa using hmem, by simpa using hc, rfl, hcomment⟩

/-- A text with a derivation spells the lexemes that its pieces make up. -/
theorem spells_of_reads (h : Reads ps cs) (hpending : MayGoOn pending cs) :
    Spells (joined pending ps) (pending ++ cs) := by
  -- The pending marks stand in front of the text; whatever is no mark ends the operator that they are.
  induction h generalizing pending with
  | nil =>
    rw [joined, ← List.append_nil (pendingOperator pending)]
    exact spells_pending hpending (by simp) .nil
  | gap c hc _ ih =>
    obtain rfl := eq_nil_of_mayGoOn hpending (not_isIdentifierStart_of_isGap hc) (not_mem_marks_of_isGap hc)
    exact .gap c hc (ih (Or.inl rfl))
  | @opening ps cs d _ ih =>
    obtain ⟨⟨hstart, hmark⟩, -⟩ := not_mark_bracket d
    obtain rfl := eq_nil_of_mayGoOn hpending hstart hmark
    exact .cons (x := .opening d) trivial (ih (Or.inl rfl))
  | @closing ps cs d _ ih =>
    obtain ⟨-, hstart, hmark⟩ := not_mark_bracket d
    obtain rfl := eq_nil_of_mayGoOn hpending hstart hmark
    exact .cons (x := .closing d) trivial (ih (Or.inl rfl))
  | @leaf ps cs rest t hleaf hreads ih =>
    have hread := readsAs_of_leaf? hleaf
    have hspells : Spells (joined [] ps) rest := ih (Or.inl rfl)
    have hunmarked (ht : ∀ c joint, t ≠ .mark c joint) :
        ∀ d ∈ cs.head?, pending ≠ [] → isOperator (pending ++ [d]) = false :=
      fun d hd hne => isOperator_concat_eq_false hne (head_of_unmarked hread ht d hd)
    cases t with
    | word text =>
      have hhead := hunmarked nofun
      obtain ⟨rfl, hstands⟩ := hread
      exact spells_pending hpending hhead (.cons hstands hspells)
    | lifetime name =>
      have hhead := hunmarked nofun
      obtain ⟨rfl, hstands⟩ := hread
      exact spells_pending hpending hhead (.cons (x := .lifetime name) hstands hspells)
    | literal text =>
      have hhead := hunmarked nofun
      obtain ⟨rfl, hstands⟩ := hread
      exact spells_pending hpending hhead (.cons hstands hspells)
    | mark c joint =>
      obtain ⟨rfl, hkind⟩ := hread
      refine spells_mark hpending ?_
      rcases hkind with ⟨rfl, rfl⟩ | ⟨hc, hmem, hcomment, rfl⟩
      · have hquote : marksBehind pending '\'' = ['\''] := by
          by_cases hne : pending = []
          · rw [hne]
            rfl
          · rw [marksBehind, isOperator_concat_eq_false hne (Or.inr rfl), if_neg Bool.false_ne_true]
        have hmarks : Spells (joined ['\''] ps) (['\''] ++ rest) := ih (Or.inr (Or.inl ⟨rfl, hleaf⟩))
        rw [← hquote] at hmarks
        exact hmarks
      · obtain ⟨hmarks, hne, hop, hcomments⟩ := operator_marksBehind hpending hmem hc hcomment
        cases hjoint : startsWithMark rest with
        | true => exact ih (Or.inr (Or.inr ⟨hmarks, hne, hop, hcomments, hjoint⟩))
        | false =>
          have hlonger := not_longer_of_reads hop hreads hjoint
          have hstands : (Lexeme.operator (marksBehind pending c)).StandsBefore rest := by
            rw [StandsBefore, if_neg hne]
            exact ⟨hmarks, hop, hcomments, hlonger⟩
          exact .cons hstands hspells
    | group => exact absurd hread id

/-- Marks end an operator in front of pieces that do not go on with it. -/
theorem joined_of_ends (h : ∀ c joint qs, ps = .mark c joint :: qs → isOperator (pending ++ [c]) = false) :
    joined pending ps = pendingOperator pending ++ joined [] ps := by
  cases ps with
  | nil => simp [joined, pendingOperator]
  | cons p ps =>
    cases p with
    | other x => simp [joined, pendingOperator]
    | mark c joint =>
      have hends := h c joint ps rfl
      simp [joined, hends, isOperator_singleton]

/-- A text that begins with no blank begins with the first of its marks. -/
theorem head_of_reads_mark {joint : Bool} (h : Reads (.mark c joint :: ps) cs) (hcs : startsWithMark cs = true) :
    cs.head? = some c := by
  generalize hqs : Piece.mark c joint :: ps = qs at h
  cases h with
  | nil => simp at hqs
  | gap d hd _ => exact absurd (startsWithMark_cons_iff.mp hcs).1 (not_mem_marks_of_isGap hd)
  | opening => simp at hqs
  | closing => simp at hqs
  | @leaf ps' _ rest t hleaf _ =>
    have hread := readsAs_of_leaf? hleaf
    cases t with
    | mark d joint' =>
      obtain ⟨rfl, -⟩ := hread
      obtain ⟨hmark, -⟩ := List.cons.inj hqs
      rw [(Piece.mark.inj hmark).1]
      rfl
    | group => exact absurd hread id
    | _ => simp [Token.piecesOf] at hqs

/-- Marks end an operator that no longer one in the text begins with. -/
theorem joined_of_not_longer (hlonger : ∀ longer ∈ operators, marks'.length < longer.length → ¬longer <+: marks' ++ rest)
    (hreads : Reads ps rest) (hrest : startsWithMark rest = true) :
    joined marks' ps = pendingOperator marks' ++ joined [] ps := by
  by_cases hne : marks' = []
  · rw [hne]
    rfl
  refine joined_of_ends ?_
  rintro c joint qs rfl
  obtain ⟨behind, rfl⟩ := List.head?_eq_some_iff.mp (head_of_reads_mark hreads hrest)
  rw [← Bool.not_eq_true]
  intro hlong
  have hpos := List.length_pos_iff.mpr hne
  have hlength : 2 ≤ (marks' ++ [c]).length := by
    rw [List.length_append, List.length_singleton]
    omega
  exact hlonger _ (mem_operators_of_isOperator hlong hlength) (by simp) ⟨behind, by simp⟩

/-- Behind the first character of an operator stands no slash. -/
theorem ne_slash_of_mem_operators {op : List Char} (hop : op ∈ operators) (hd : d ∈ op.tail) : d ≠ '/' := by
  have hall : ∀ op ∈ operators, op.tail.all (· != '/') = true := by decide
  simpa using List.all_eq_true.mp (hall op hop) d hd

/-- The marks of an operator are read one by one. -/
theorem reads_operator {todo op : List Char} (hop : pending ++ todo = op) (htodo : todo ≠ []) (hne : op ≠ ['\''])
    (hstands : (Lexeme.operator op).StandsBefore rest) (hreads : Reads ps rest)
    (hcomment : ¬BeginsComment (todo ++ rest)) :
    ∃ qs, Reads qs (todo ++ rest) ∧ joined pending qs = .operator op :: joined [] ps := by
  rw [StandsBefore, if_neg hne] at hstands
  obtain ⟨hmarks, hoperator, -, hlonger⟩ := hstands
  -- The induction is on the marks to come, behind those that have been read and go on as the operator.
  induction todo generalizing pending with
  | nil => exact absurd rfl htodo
  | cons d more ih =>
    have hd : d ∈ marks := hmarks d (by simp [← hop])
    have hquote : d ≠ '\'' := by
      rintro rfl
      exact quote_not_mem_of_isOperator hoperator hne (by simp [← hop])
    have hleaf : leaf? (d :: (more ++ rest)) = some (.mark d (startsWithMark (more ++ rest)), more ++ rest) :=
      leaf?_of_mark hd hquote hcomment
    cases more with
    | nil =>
      refine ⟨_, .leaf hleaf hreads, ?_⟩
      simp only [Token.piecesOf, List.cons_append, List.nil_append, joined, hop, hoperator, if_true]
      cases hjoint : startsWithMark rest with
      | false => rfl
      | true =>
        rw [if_pos rfl, joined_of_not_longer hlonger hreads hjoint, pendingOperator, if_neg (by simp [← hop]),
          List.singleton_append]
    | cons d' more =>
      have hlong : op ∈ operators := mem_operators_of_isOperator hoperator (by
        rw [← hop]
        simp
        omega)
      have htail : d' ∈ op.tail := by
        rw [← hop]
        cases pending <;> simp
      have hcomment' : ¬BeginsComment (d' :: (more ++ rest)) :=
        not_beginsComment_cons (ne_slash_of_mem_operators hlong htail)
      have hjoint : startsWithMark (d' :: (more ++ rest)) = true :=
        startsWithMark_cons_iff.mpr ⟨hmarks d' (List.mem_of_mem_tail htail), hcomment'⟩
      have hgoes : isOperator (pending ++ [d]) = true :=
        isOperator_of_isPrefix hlong (by simp) ⟨d' :: more, by simpa using hop⟩
      have hop' : (pending ++ [d]) ++ d' :: more = op := by simpa using hop
      obtain ⟨qs, hqs, hjoined⟩ := ih hop' (by simp) hcomment'
      refine ⟨_, .leaf hleaf hqs, ?_⟩
      simp only [Token.piecesOf, List.cons_append, List.nil_append, joined, hgoes, if_true, hjoint]
      exact hjoined

/-- A text that spells lexemes has a derivation as pieces that make them up. -/
theorem exists_reads_of_spells {xs : List Lexeme} (h : Spells xs cs) : ∃ ps, Reads ps cs ∧ joined [] ps = xs := by
  induction h with
  | nil => exact ⟨[], .nil, rfl⟩
  | gap c hc _ ih =>
    obtain ⟨ps, hreads, hjoined⟩ := ih
    exact ⟨ps, .gap c hc hreads, hjoined⟩
  | @cons x xs cs hstands _ ih =>
    obtain ⟨ps, hreads, rfl⟩ := ih
    cases x with
    | opening d => exact ⟨_, .opening d hreads, rfl⟩
    | closing d => exact ⟨_, .closing d hreads, rfl⟩
    | word text => exact ⟨_, .leaf (leaf?_of_word hstands) hreads, rfl⟩
    | lifetime name => exact ⟨_, .leaf (leaf?_of_lifetime hstands) hreads, rfl⟩
    | literal text => exact ⟨_, .leaf (leaf?_of_literal hstands) hreads, rfl⟩
    | operator op =>
      by_cases hquote : op = ['\'']
      · subst hquote
        rw [StandsBefore, if_pos rfl] at hstands
        have hends : joined ['\''] ps = pendingOperator ['\''] ++ joined [] ps := by
          refine joined_of_ends fun c _ _ _ => ?_
          rw [← Bool.not_eq_true]
          intro hop
          exact quote_not_mem_of_isOperator hop (by simp) (by simp)
        exact ⟨_, .leaf hstands hreads, hends⟩
      · have hcomment := hstands
        rw [StandsBefore, if_neg hquote] at hcomment
        obtain ⟨-, hop, hcomment, -⟩ := hcomment
        refine reads_operator rfl ?_ hquote hstands hreads hcomment
        rintro rfl
        exact absurd hop (by decide)

end CommandBinding.Lexer
