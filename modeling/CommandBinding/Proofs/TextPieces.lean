import CommandBinding.Proofs.TokenGaps
import Mathlib.Data.List.TakeWhile

/-!
A text as pieces: string and character literals, gaps of white space, and the other characters one by one. The one
spacing of a text has the same pieces in the same order, but for the gaps: a gap between two word characters becomes one
space, and every other gap is closed.
-/
namespace CommandBinding.CodeText

inductive TextPiece where
  /-- A string or character literal, from the mark that opens it on. -/
  | literal (cs : List Char)
  | gap (run : List Char)
  | code (c : Char)
deriving DecidableEq, Repr

namespace TextPiece

def chars : TextPiece → List Char
  | literal cs => cs
  | gap run => run
  | code c => [c]

def isGap : TextPiece → Bool
  | gap _ => true
  | _ => false

end TextPiece

def opensLiteral (c : Char) (rest : List Char) : Bool :=
  c == '"' || c == '\'' && opensCharacter rest

/-- Cuts a text behind the first mark `quote` with no backslash in front of it. A backslash takes the character behind
it along, and without such a mark nothing is left behind the cut. -/
def cutLiteral (quote : Char) : List Char → List Char × List Char
  | [] => ([], [])
  | ['\\'] => (['\\'], [])
  | '\\' :: c :: rest => ('\\' :: c :: (cutLiteral quote rest).1, (cutLiteral quote rest).2)
  | c :: rest => if c = quote then ([c], rest) else (c :: (cutLiteral quote rest).1, (cutLiteral quote rest).2)

theorem cutLiteral_append (quote : Char) (cs : List Char) : (cutLiteral quote cs).1 ++ (cutLiteral quote cs).2 = cs := by
  fun_induction cutLiteral quote cs with
  | case1 => rfl
  | case2 => rfl
  | case3 c rest ih => simp [ih]
  | case4 rest => rfl
  | case5 c rest _ _ _ ih => simp [ih]

theorem length_cutLiteral (quote : Char) (cs : List Char) : (cutLiteral quote cs).2.length ≤ cs.length := by
  have happend := congrArg List.length (cutLiteral_append quote cs)
  rw [List.length_append] at happend
  omega

def pieces : List Char → List TextPiece
  | [] => []
  | c :: rest =>
    if Unicode.isBlank c then .gap (c :: rest.takeWhile Unicode.isBlank) :: pieces (rest.dropWhile Unicode.isBlank)
    else if opensLiteral c rest then .literal (c :: (cutLiteral c rest).1) :: pieces (cutLiteral c rest).2
    else .code c :: pieces rest
termination_by cs => cs.length
decreasing_by
  · exact Nat.lt_succ_of_le (List.length_dropWhile_le _ _)
  · exact Nat.lt_succ_of_le (length_cutLiteral c rest)
  · exact Nat.lt_succ_self _

/-- The pieces behind the character `last` with one space for every gap between two word characters and nothing for the
other gaps. -/
def closeGaps (last : Option Char) : List TextPiece → List TextPiece
  | [] => []
  | .gap _ :: ps => (if face last (ps.flatMap TextPiece.chars).head? then [.gap [' ']] else []) ++ closeGaps last ps
  | p :: ps => p :: closeGaps p.chars.getLast? ps

variable {cs front back run : List Char} {c quote : Char} {ps before behind : List TextPiece} {last : Option Char}

/-- Every character of a text stands in exactly one of its pieces. -/
theorem flatMap_chars_pieces (cs : List Char) : (pieces cs).flatMap TextPiece.chars = cs := by
  fun_induction pieces cs with
  | case1 => rfl
  | case2 c rest _ ih => simp [TextPiece.chars, ih]
  | case3 c rest _ _ ih => simp [TextPiece.chars, ih, cutLiteral_append]
  | case4 c rest _ _ ih => simp [TextPiece.chars, ih]

theorem not_blank_of_code (h : TextPiece.code c ∈ pieces cs) : Unicode.isBlank c = false := by
  fun_induction pieces cs with
  | case1 => cases h
  | case2 d rest _ ih => exact ih (by simpa using h)
  | case3 d rest _ _ ih => exact ih (by simpa using h)
  | case4 d rest hd _ ih =>
    rcases List.mem_cons.mp h with heq | hrest
    · obtain rfl := TextPiece.code.inj heq
      simpa using hd
    · exact ih hrest

/-- Closing gaps touches no other piece. -/
theorem filter_closeGaps (last : Option Char) (ps : List TextPiece) :
    (closeGaps last ps).filter (!·.isGap) = ps.filter (!·.isGap) := by
  fun_induction closeGaps last ps with
  | case1 => rfl
  | case2 last run ps ih =>
    rw [List.filter_append, ih]
    split <;> rfl
  | case3 last p ps hgap ih =>
    rw [List.filter_cons, List.filter_cons, ih]

/-! The one spacing closes the gaps of a text. -/

theorem afterCode_eq (c : Char) (rest : List Char) :
    afterCode c rest = if opensLiteral c rest then .literal c else .code := by
  by_cases hstring : c = '"'
  · simp [afterCode, opensLiteral, hstring]
  · by_cases hquote : c = '\''
    · simp [afterCode, opensLiteral, hquote]
    · simp [afterCode, opensLiteral, hstring, hquote]

theorem ne_backslash_of_opensLiteral {rest : List Char} (h : opensLiteral c rest = true) : c ≠ '\\' := by
  rintro rfl
  simp [opensLiteral] at h

/-- A literal is copied to its end. -/
theorem tightFrom_literal (hquote : quote ≠ '\\') (last : Option Char) (gap : Bool) (cs : List Char) :
    tightFrom (.literal quote) last gap cs = (cutLiteral quote cs).1 ++
      tightFrom .code ((cutLiteral quote cs).1.getLast?.or last) false (cutLiteral quote cs).2 := by
  fun_induction cutLiteral quote cs generalizing last gap with
  | case1 => rfl
  | case2 => simp [tightFrom]
  | case3 c rest ih =>
    simp only [tightFrom, insideLiteral, beq_self_eq_true, if_true, ih, List.cons_append, List.getLast?_cons,
      List.cons.injEq, true_and]
    cases (cutLiteral quote rest).1.getLast? <;> rfl
  | case4 rest _ _ =>
    simp [tightFrom, insideLiteral, hquote]
  | case5 c rest hend hescape hc ih =>
    have hne : c ≠ '\\' := by
      rintro rfl
      cases rest with
      | nil => exact hend rfl rfl
      | cons d rest => exact hescape d rest rfl rfl
    simp only [tightFrom, insideLiteral, beq_iff_eq, hne, hc, if_false, ih, List.cons_append, List.getLast?_cons]
    cases (cutLiteral quote rest).1.getLast? <;> rfl

/-- Blanks in front of a character are kept in mind only. -/
theorem tightFrom_gap (last : Option Char) (cs : List Char) : tightFrom .code last true cs =
    (if face last (cs.dropWhile Unicode.isBlank).head? then [' '] else []) ++
      tightFrom .code last false (cs.dropWhile Unicode.isBlank) := by
  induction cs with
  | nil => simp [tightFrom, face]
  | cons c cs ih =>
    by_cases hc : Unicode.isBlank c = true
    · rw [tightFrom, if_pos hc, ih, List.dropWhile_cons_of_pos hc]
    · rw [List.dropWhile_cons_of_neg hc]
      rw [tightFrom, if_neg hc, tightFrom_code (Bool.eq_false_iff.mpr hc), Bool.true_and]
      split <;> simp_all [face]

theorem tightFrom_pieces (last : Option Char) (cs : List Char) :
    tightFrom .code last false cs = (closeGaps last (pieces cs)).flatMap TextPiece.chars := by
  fun_induction pieces cs generalizing last with
  | case1 => rfl
  | case2 c rest hc ih =>
    rw [tightFrom, if_pos hc, tightFrom_gap, ih, closeGaps, flatMap_chars_pieces, List.flatMap_append]
    split <;> rfl
  | case3 c rest hc hopens ih =>
    have hblank : Unicode.isBlank c = false := by simpa using hc
    rw [tightFrom_code hblank, afterCode_eq, if_pos hopens, tightFrom_literal (ne_backslash_of_opensLiteral hopens), ih,
      closeGaps, List.flatMap_cons, TextPiece.chars, List.getLast?_cons]
    · cases (cutLiteral c rest).1.getLast? <;> rfl
    · simp
  | case4 c rest hc hopens ih =>
    have hblank : Unicode.isBlank c = false := by simpa using hc
    rw [tightFrom_code hblank, afterCode_eq, if_neg hopens, ih, closeGaps, List.flatMap_cons]
    · rfl
    · simp

theorem toList_tight_eq (text : String) :
    (tight text).toList = (closeGaps none (pieces (trimBlanks text.toList))).flatMap TextPiece.chars := by
  rw [tight, String.toList_ofList, tightFrom_pieces]

/-! White space in the one spacing. -/

theorem not_blank_of_head?_dropWhile (h : (cs.dropWhile Unicode.isBlank).head? = some c) :
    Unicode.isBlank c = false := by
  have hhead := List.head?_dropWhile_not Unicode.isBlank cs
  rwa [h] at hhead

theorem not_blank_of_getLast?_trimBlanks (h : (trimBlanks cs).getLast? = some c) : Unicode.isBlank c = false := by
  rw [trimBlanks, List.getLast?_reverse] at h
  exact not_blank_of_head?_dropWhile h

theorem not_blank_of_head?_trimBlanks (h : (trimBlanks cs).head? = some c) : Unicode.isBlank c = false := by
  obtain ⟨behind, hbehind⟩ := List.dropWhile_suffix Unicode.isBlank (l := (cs.dropWhile Unicode.isBlank).reverse)
  have hfront : cs.dropWhile Unicode.isBlank = trimBlanks cs ++ behind.reverse := by
    rw [trimBlanks, ← List.reverse_append, hbehind, List.reverse_reverse]
  have hhead : (cs.dropWhile Unicode.isBlank).head? = some c := by rw [hfront, List.head?_append, h, Option.some_or]
  exact not_blank_of_head?_dropWhile hhead

/-- A character that is no blank is written where it ends a text. -/
theorem getLast?_tightFrom {region : Region} {gap : Bool} (h : cs.getLast? = some c) (hc : Unicode.isBlank c = false) :
    (tightFrom region last gap cs).getLast? = some c := by
  have hcons {d : Char} {rest : List Char} {out : List Char} (h : (d :: rest).getLast? = some c)
      (hout : rest.getLast? = some c → out.getLast? = some c) (hnil : rest = [] → out = []) :
      (d :: out).getLast? = some c := by
    cases rest with
    | nil => rwa [hnil rfl]
    | cons e rest =>
      rw [List.getLast?_cons_cons] at h
      rw [List.getLast?_cons, hout h, Option.getD_some]
  fun_induction tightFrom region last gap cs with
  | case1 => cases h
  | case2 _ _ quote d rest ih => exact hcons h ih (by rintro rfl; rfl)
  | case3 _ _ quote d rest ih => exact hcons h ih (by rintro rfl; rfl)
  | case4 last gap d rest hd ih =>
    refine ih ?_
    cases rest with
    | nil =>
      have hsame : d = c := Option.some.inj h
      rw [hsame, hc] at hd
      exact Bool.noConfusion hd
    | cons e rest => rwa [List.getLast?_cons_cons] at h
  | case5 last gap d rest hd _ ih =>
    rw [List.getLast?_cons_cons]
    exact hcons h ih (by rintro rfl; rfl)
  | case6 last gap d rest hd _ ih => exact hcons h ih (by rintro rfl; rfl)

theorem head?_tightFrom (h : cs.head? = some c) (hc : Unicode.isBlank c = false) :
    (tightFrom .code last false cs).head? = some c := by
  obtain ⟨rest, rfl⟩ := List.head?_eq_some_iff.mp h
  rw [tightFrom_code hc, List.head?_cons]

theorem head?_tight (text : String) : (tight text).toList.head? = (trimBlanks text.toList).head? := by
  rw [tight, String.toList_ofList]
  cases h : (trimBlanks text.toList).head? with
  | none => rw [List.head?_eq_none_iff.mp h, tightFrom, List.head?_nil]
  | some c => exact head?_tightFrom h (not_blank_of_head?_trimBlanks h)

theorem getLast?_tight (text : String) : (tight text).toList.getLast? = (trimBlanks text.toList).getLast? := by
  rw [tight, String.toList_ofList]
  cases h : (trimBlanks text.toList).getLast? with
  | none => rw [List.getLast?_eq_none_iff.mp h, tightFrom, List.getLast?_nil]
  | some c => exact getLast?_tightFrom h (not_blank_of_getLast?_trimBlanks h)

/-- Every gap among pieces behind the character `last` is one space between two word characters. -/
def SpacesWords (last : Option Char) (ps : List TextPiece) : Prop :=
  ∀ before run behind, ps = before ++ .gap run :: behind → run = [' '] ∧
    ((before.flatMap TextPiece.chars).getLast?.or last).any isWordChar = true ∧
    (behind.flatMap TextPiece.chars).head?.any isWordChar = true

theorem SpacesWords.cons {p : TextPiece} (hp : p.isGap = false) (h : SpacesWords p.chars.getLast? ps)
    (last : Option Char) : SpacesWords last (p :: ps) := by
  intro before run behind heq
  cases before with
  | nil =>
    obtain ⟨rfl, -⟩ := List.cons.inj heq
    exact Bool.noConfusion hp
  | cons q before =>
    obtain ⟨rfl, hps⟩ := List.cons.inj heq
    obtain ⟨hrun, hfront, hback⟩ := h before run behind hps
    refine ⟨hrun, ?_, hback⟩
    rw [List.flatMap_cons, List.getLast?_append]
    cases hlast : (before.flatMap TextPiece.chars).getLast?.or p.chars.getLast? with
    | none => simp [hlast] at hfront
    | some d => rwa [Option.some_or, ← hlast]

theorem SpacesWords.space (hlast : last.any isWordChar = true)
    (hnext : (ps.flatMap TextPiece.chars).head?.any isWordChar = true) (h : SpacesWords last ps) :
    SpacesWords last (.gap [' '] :: ps) := by
  intro before run behind heq
  cases before with
  | nil =>
    obtain ⟨hrun, rfl⟩ := List.cons.inj heq
    exact ⟨(TextPiece.gap.inj hrun).symm, hlast, hnext⟩
  | cons q before =>
    obtain ⟨rfl, rfl⟩ := List.cons.inj heq
    obtain ⟨rfl, hfront, hback⟩ := h before run behind rfl
    refine ⟨rfl, ?_, hback⟩
    cases hchars : before.flatMap TextPiece.chars with
    | nil =>
      -- The second gap would be the first thing behind the first one, where a word character stands.
      have hspace : isWordChar ' ' = true := by
        simpa [TextPiece.chars, hchars] using hnext
      exact absurd hspace (by decide)
    | cons d more =>
      rw [hchars] at hfront
      rwa [List.flatMap_cons, hchars, List.getLast?_append]

theorem spacesWords_closeGaps (last : Option Char) (cs : List Char) : SpacesWords last (closeGaps last (pieces cs)) := by
  fun_induction pieces cs generalizing last with
  | case1 => simp [SpacesWords, closeGaps]
  | case2 c rest hc ih =>
    rw [closeGaps, flatMap_chars_pieces]
    split
    · next hface =>
      simp only [face, Bool.and_eq_true] at hface
      obtain ⟨d, hd, hword⟩ := (Option.any_eq_true _ _).mp hface.2
      have hhead : (tightFrom .code last false (rest.dropWhile Unicode.isBlank)).head? = some d :=
        head?_tightFrom hd (not_blank_of_isWordChar hword)
      rw [tightFrom_pieces] at hhead
      rw [List.singleton_append]
      exact .space hface.1 (by rwa [hhead]) (ih last)
    · exact ih last
  | case3 c rest _ _ ih => exact .cons rfl (ih _) last
  | case4 c rest _ _ ih => exact .cons rfl (ih _) last

/-- The character `c` behind `front` and in front of `back` belongs to a literal among the pieces. -/
def InLiteral (ps : List TextPiece) (front : List Char) (c : Char) (back : List Char) : Prop :=
  ∃ before x y behind, ps = before ++ .literal (x ++ c :: y) :: behind ∧
    front = before.flatMap TextPiece.chars ++ x ∧ back = y ++ behind.flatMap TextPiece.chars

theorem exists_piece (h : ps.flatMap TextPiece.chars = front ++ c :: back) : ∃ before p behind x y,
    ps = before ++ p :: behind ∧ p.chars = x ++ c :: y ∧ front = before.flatMap TextPiece.chars ++ x ∧
      back = y ++ behind.flatMap TextPiece.chars := by
  induction ps generalizing front with
  | nil => simp at h
  | cons p ps ih =>
    rw [List.flatMap_cons, List.append_eq_append_iff] at h
    rcases h with ⟨more, rfl, hmore⟩ | ⟨more, hp, hmore⟩
    · obtain ⟨before, q, behind, x, y, rfl, hchars, rfl, hback⟩ := ih hmore
      exact ⟨p :: before, q, behind, x, y, rfl, hchars, by simp, hback⟩
    · cases more with
      | nil =>
        have hrest : ps.flatMap TextPiece.chars = [] ++ c :: back := by simpa using hmore.symm
        obtain ⟨before, q, behind, x, y, rfl, hchars, hfront, hback⟩ := ih hrest
        refine ⟨p :: before, q, behind, x, y, rfl, hchars, ?_, hback⟩
        rw [List.flatMap_cons, List.append_assoc, ← hfront, List.append_nil, hp, List.append_nil]
      | cons d more =>
        obtain ⟨rfl, hback⟩ := List.cons.inj hmore
        exact ⟨[], p, ps, front, more, rfl, hp, rfl, hback⟩

/-- A blank in the one spacing belongs to a literal, or is one space between two word characters. -/
theorem blank_of_tight {text : String} (h : (tight text).toList = front ++ c :: back) (hc : Unicode.isBlank c = true) :
    c = ' ' ∧ front.getLast?.any isWordChar = true ∧ back.head?.any isWordChar = true ∨
      InLiteral (closeGaps none (pieces (trimBlanks text.toList))) front c back := by
  rw [toList_tight_eq] at h
  obtain ⟨before, p, behind, x, y, hps, hchars, rfl, rfl⟩ := exists_piece h
  have hmem : p ∈ closeGaps none (pieces (trimBlanks text.toList)) := by simp [hps]
  cases p with
  | literal cs => exact .inr ⟨before, x, y, behind, hchars ▸ hps, rfl, rfl⟩
  | gap run =>
    obtain ⟨rfl, hfront, hback⟩ := spacesWords_closeGaps none _ _ _ _ hps
    obtain ⟨rfl, rfl, rfl⟩ : x = [] ∧ c = ' ' ∧ y = [] := by
      simpa [TextPiece.chars, List.append_eq_singleton_iff] using hchars.symm
    exact .inl ⟨rfl, by simpa using hfront, by simpa using hback⟩
  | code d =>
    have hcode : TextPiece.code d ∈ pieces (trimBlanks text.toList) := by
      have hkept : TextPiece.code d ∈ (closeGaps none (pieces (trimBlanks text.toList))).filter (!·.isGap) :=
        List.mem_filter.mpr ⟨hmem, rfl⟩
      rw [filter_closeGaps] at hkept
      exact (List.mem_filter.mp hkept).1
    have hd := not_blank_of_code hcode
    obtain ⟨-, rfl, -⟩ : x = [] ∧ c = d ∧ y = [] := by
      simpa [TextPiece.chars, List.append_eq_singleton_iff] using hchars.symm
    rw [hc] at hd
    exact Bool.noConfusion hd

/-- The one spacing of a text touches its white space only. -/
theorem tight_touches_gaps_only (text : String) :
    (tight text).toList.filter (!Unicode.isBlank ·) = text.toList.filter (!Unicode.isBlank ·) ∧
      (∀ c ∈ (tight text).toList.head?, Unicode.isBlank c = false) ∧
      (∀ c ∈ (tight text).toList.getLast?, Unicode.isBlank c = false) ∧
      (pieces (trimBlanks text.toList)).flatMap TextPiece.chars = trimBlanks text.toList ∧
      (tight text).toList = (closeGaps none (pieces (trimBlanks text.toList))).flatMap TextPiece.chars ∧
      (closeGaps none (pieces (trimBlanks text.toList))).filter (!·.isGap) =
        (pieces (trimBlanks text.toList)).filter (!·.isGap) ∧
      ∀ front c back, (tight text).toList = front ++ c :: back → Unicode.isBlank c = true →
        c = ' ' ∧ front.getLast?.any isWordChar = true ∧ back.head?.any isWordChar = true ∨
          InLiteral (closeGaps none (pieces (trimBlanks text.toList))) front c back := by
  refine ⟨filter_tight text, fun c hc => ?_, fun c hc => ?_, flatMap_chars_pieces _, toList_tight_eq text,
    filter_closeGaps _ _, fun front c back htext hc => blank_of_tight htext hc⟩
  · rw [head?_tight] at hc
    exact not_blank_of_head?_trimBlanks hc
  · rw [getLast?_tight] at hc
    exact not_blank_of_getLast?_trimBlanks hc

end CommandBinding.CodeText
