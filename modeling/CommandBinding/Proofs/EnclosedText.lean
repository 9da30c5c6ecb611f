import CommandBinding.Proofs.LeafReading
import CommandBinding.Proofs.TightText
import CommandBinding.Proofs.WrappedText

/-!
Texts with an argument in brackets. The one spacing copies a final bracket and reads what stands behind a bracket like
a text of its own, so it spaces an argument in brackets as it spaces the argument. Whether a text is one argument
depends on its brackets and commas only.
-/
namespace CommandBinding.CodeText

variable {cs rest name segment : List Char} {c : Char} {last : Option Char}

/-! Spacing. -/

theorem opensCharacter_append_angle (cs : List Char) : opensCharacter (cs ++ ['>']) = opensCharacter cs := by
  rw [Bool.eq_iff_iff, opensCharacter_iff, opensCharacter_iff]
  match cs with
  | [] => simp
  | [_] => simp
  | _ :: _ :: _ => simp

/-- A final bracket is copied, whatever stands in front of it. -/
theorem tightFrom_append_angle (region : Region) (last : Option Char) (gap : Bool) (cs : List Char) :
    tightFrom region last gap (cs ++ ['>']) = tightFrom region last gap cs ++ ['>'] := by
  have hblank : Unicode.isBlank '>' = false := by decide
  have hword : isWordChar '>' = false := by decide
  have hregion (c : Char) (rest : List Char) : afterCode c (rest ++ ['>']) = afterCode c rest := by
    rw [afterCode, afterCode, opensCharacter_append_angle]
  fun_induction tightFrom region last gap cs with
  | case1 last gap region => cases region <;> simp [tightFrom, hblank, hword]
  | case2 _ _ quote c rest ih => simp [tightFrom, ih]
  | case3 _ _ quote c rest ih => simp [tightFrom, ih]
  | case4 last gap c rest hc ih => simp [tightFrom, hc, ih]
  | case5 last gap c rest hc hspace ih => simp [tightFrom, hc, hspace, hregion, ih]
  | case6 last gap c rest hc hspace ih => simp [tightFrom, hc, hspace, hregion, ih]

/-- Behind a character that is none of a word, a text is spaced like a text of its own. -/
theorem tightFrom_of_not_word (h : last.any isWordChar = false) (gap : Bool) (cs : List Char) :
    tightFrom .code last gap cs = tightFrom .code none false cs := by
  induction cs generalizing gap with
  | nil => rfl
  | cons c cs ih =>
    by_cases hc : Unicode.isBlank c = true
    · have hnone : tightFrom .code none true cs = tightFrom .code none false cs := by
        rw [tightFrom_dropWhile true, ← tightFrom_dropWhile false]
      rw [tightFrom, if_pos hc, tightFrom, if_pos hc, ih, hnone]
    · simp [tightFrom, hc, h]

theorem tightFrom_space (last : Option Char) (gap : Bool) (rest : List Char) :
    tightFrom .code last gap (' ' :: rest) = tightFrom .code last true rest := by
  rw [tightFrom, if_pos (by decide)]

/-- No space stands in front of a mark. -/
theorem tightFrom_mark (hplain : isPlain c = true) (hword : isWordChar c = false) (last : Option Char) (gap : Bool)
    (rest : List Char) : tightFrom .code last gap (c :: rest) = c :: tightFrom .code none false rest := by
  have hcopied : isCopied .code [c] = true := isCopied_of_isPlain (by simpa using hplain)
  have hgap : tightFrom .code last gap (c :: rest) = tightFrom .code last false ([c] ++ rest) := by
    simp [tightFrom, hword]
  rw [hgap, tightFrom_append hcopied]
  exact congrArg (c :: ·) (tightFrom_of_not_word (by simpa using hword) false rest)

theorem tightFrom_colons (last : Option Char) (gap : Bool) (rest : List Char) :
    tightFrom .code last gap (':' :: ':' :: ' ' :: rest) = ':' :: ':' :: tightFrom .code none false rest := by
  rw [tightFrom_mark (by decide) (by decide), tightFrom_mark (by decide) (by decide), tightFrom_space,
    tightFrom_of_not_word rfl]

theorem toList_tight {text : String} (h : ∀ c ∈ text.toList.getLast?, Unicode.isBlank c = false) :
    (tight text).toList = tightFrom .code none false text.toList := by
  rw [tight, String.toList_ofList, trimBlanks_of_not_blank h, ← tightFrom_dropWhile]

/-! Brackets. -/

def isOpening (c : Char) : Bool :=
  c == '<' || c == '(' || c == '['

def isClosing (c : Char) : Bool :=
  c == '>' || c == ')' || c == ']'

theorem not_isClosing_of_isOpening (h : isOpening c = true) : isClosing c = false := by
  simp only [isOpening, Bool.or_eq_true, beq_iff_eq] at h
  rcases h with (rfl | rfl) | rfl <;> decide

/-- A text that is one argument closes every bracket it opens, and those open at its start. -/
theorem countP_of_isOneArgument {depth : Nat} (h : isOneArgument depth cs = true) :
    depth + cs.countP isOpening = cs.countP isClosing := by
  fun_induction isOneArgument depth cs with
  | case1 depth => simpa using h
  | case2 depth c rest hopen ih =>
    have hopens : isOpening c = true := hopen
    have := ih h
    simp only [List.countP_cons, hopens, not_isClosing_of_isOpening hopens]
    simp
    omega
  | case3 depth c rest hopen hclose ih =>
    have hcloses : isClosing c = true := hclose
    have hopens : isOpening c = false := by simpa [isOpening] using hopen
    simp only [Bool.and_eq_true, bne_iff_ne, ne_eq] at h
    have := ih h.2
    simp only [List.countP_cons, hopens, hcloses]
    simp
    omega
  | case4 => simp at h
  | case5 depth c rest hopen hclose _ ih =>
    have hopens : isOpening c = false := by simpa [isOpening] using hopen
    have hcloses : isClosing c = false := by simpa [isClosing] using hclose
    simpa [List.countP_cons, hopens, hcloses] using ih h

theorem isOneArgument_opening (h : isOpening c = true) (depth : Nat) (cs : List Char) :
    isOneArgument depth (c :: cs) = isOneArgument (depth + 1) cs := by
  have hopen : (c == '<' || c == '(' || c == '[') = true := h
  rw [isOneArgument, if_pos hopen]

theorem isOneArgument_closing (h : isClosing c = true) (depth : Nat) (cs : List Char) :
    isOneArgument (depth + 1) (c :: cs) = isOneArgument depth cs := by
  have hclose : (c == '>' || c == ')' || c == ']') = true := h
  have hopen : ¬(c == '<' || c == '(' || c == '[') = true := fun hopen =>
    absurd h (by rw [not_isClosing_of_isOpening hopen]; decide)
  rw [isOneArgument, if_neg hopen, if_pos hclose]
  simp

theorem isOneArgument_cons {depth : Nat} (hopens : isOpening c = false) (hcloses : isClosing c = false)
    (hcomma : depth ≠ 0 ∨ c ≠ ',') : isOneArgument depth (c :: cs) = isOneArgument depth cs := by
  have hopen : ¬(c == '<' || c == '(' || c == '[') = true := by simpa [isOpening] using hopens
  have hclose : ¬(c == '>' || c == ')' || c == ']') = true := by simpa [isClosing] using hcloses
  have hapart : ¬(c == ',' && depth == 0) = true := by
    simp only [Bool.and_eq_true, beq_iff_eq]
    rintro ⟨hc, hdepth⟩
    exact hcomma.elim (· hdepth) (· hc)
  rw [isOneArgument, if_neg hopen, if_neg hclose, if_neg hapart]

/-- What holds neither a bracket nor, outside all brackets, a comma can be left out. -/
theorem isOneArgument_append_left {depth : Nat} (hbracket : ∀ c ∈ cs, isOpening c = false ∧ isClosing c = false)
    (hcomma : depth ≠ 0 ∨ ',' ∉ cs) : isOneArgument depth (cs ++ rest) = isOneArgument depth rest := by
  induction cs with
  | nil => rfl
  | cons c cs ih =>
    obtain ⟨hopens, hcloses⟩ := hbracket c (List.mem_cons_self ..)
    rw [List.cons_append, isOneArgument_cons hopens hcloses (hcomma.imp_right fun h hc => h (by simp [hc]))]
    exact ih (fun d hd => hbracket d (List.mem_cons_of_mem _ hd)) (hcomma.imp_right fun h hc => h (by simp [hc]))

/-- Blanks do not matter to what one argument is. -/
theorem isOneArgument_filter (depth : Nat) (cs : List Char) :
    isOneArgument depth (cs.filter (!Unicode.isBlank ·)) = isOneArgument depth cs := by
  have hmark : ∀ d ∈ ['<', '(', '[', '>', ')', ']', ','], Unicode.isBlank d = false :=
    List.all_iff_forall_prop.mp (by decide)
  induction cs generalizing depth with
  | nil => rfl
  | cons c cs ih =>
    by_cases hc : Unicode.isBlank c = true
    · have hne : ∀ d ∈ ['<', '(', '[', '>', ')', ']', ','], c ≠ d := by
        rintro d hd rfl
        simp [hmark c hd] at hc
      simp only [List.forall_mem_cons] at hne
      rw [List.filter_cons_of_neg (by simpa using hc), ih,
        isOneArgument_cons (by simp [isOpening, hne]) (by simp [isClosing, hne]) (Or.inr (by simp [hne]))]
    · rw [List.filter_cons_of_pos (by simpa using hc)]
      simp only [isOneArgument, ih]

/-- Whether a text is one argument can be told from its one spacing, and the other way round. -/
theorem isOneArgument_tight (depth : Nat) (text : String) :
    isOneArgument depth (tight text).toList = isOneArgument depth text.toList := by
  rw [← isOneArgument_filter, filter_tight, isOneArgument_filter]

/-! The name in front. -/

theorem headFrom_cons (h : (if segment.isEmpty then startsName c else continuesName c) = true) (rest : List Char) :
    headFrom segment (c :: rest) = headFrom (c :: segment) rest := by
  rw [headFrom.eq_def]
  exact if_pos h

theorem headFrom_append (hname : ∀ c ∈ name, continuesName c = true) (hsegment : segment ≠ []) (rest : List Char) :
    headFrom segment (name ++ rest) = headFrom (name.reverse ++ segment) rest := by
  induction name generalizing segment with
  | nil => rfl
  | cons c name ih =>
    have hc := hname c (List.mem_cons_self ..)
    rw [List.cons_append, headFrom_cons (by simp [hsegment, hc]),
      ih (fun d hd => hname d (List.mem_cons_of_mem _ hd)) (List.cons_ne_nil _ _)]
    simp

theorem headFrom_name (h : isAsciiName (String.ofList name) = true) (rest : List Char) :
    headFrom [] (name ++ rest) = headFrom name.reverse rest := by
  have hcontinues := continuesName_of_isAsciiName h
  rw [String.toList_ofList] at hcontinues
  rw [isAsciiName, String.toList_ofList] at h
  cases name with
  | nil => simp at h
  | cons c name =>
    have hc : startsName c = true := (Bool.and_eq_true_iff.mp h).1
    rw [List.cons_append, headFrom_cons (by simpa using hc),
      headFrom_append (fun d hd => hcontinues d (List.mem_cons_of_mem _ hd)) (List.cons_ne_nil _ _)]
    simp

theorem headFrom_angle (hsegment : segment ≠ []) (cs : List Char) :
    headFrom segment ('<' :: cs) = some (segment.reverse, cs) := by
  have hangle : continuesName '<' = false := by decide
  rw [headFrom.eq_def]
  simp [hsegment, hangle]

theorem headFrom_colons (hsegment : segment ≠ []) (cs : List Char) :
    headFrom segment (':' :: ':' :: cs) = headFrom [] cs := by
  have hcolon : continuesName ':' = false := by decide
  rw [headFrom.eq_def]
  simp [hsegment, hcolon]

theorem headFrom_eq_none (hname : ∃ c ∈ name, continuesName c = false) (hmarks : ∀ c ∈ name, c ≠ ':' ∧ c ≠ '<')
    (hsegment : segment ≠ []) (rest : List Char) : headFrom segment (name ++ rest) = none := by
  induction name generalizing segment with
  | nil => simp at hname
  | cons c name ih =>
    by_cases hc : continuesName c = true
    · obtain ⟨d, hd, hstop⟩ := hname
      rcases List.mem_cons.mp hd with rfl | hd
      · rw [hc] at hstop
        exact absurd hstop (by decide)
      · rw [List.cons_append, headFrom_cons (by simp [hsegment, hc])]
        exact ih ⟨d, hd, hstop⟩ (fun e he => hmarks e (List.mem_cons_of_mem _ he)) (List.cons_ne_nil _ _)
    · obtain ⟨hcolon, hangle⟩ := hmarks c (List.mem_cons_self ..)
      rw [List.cons_append, headFrom.eq_def]
      simp [hsegment, hc, hcolon, hangle]

/-- A name with other characters than those of ASCII names is not read. -/
theorem headFrom_of_not_isAsciiName (h : isAsciiName (String.ofList name) = false) (hne : name ≠ [])
    (hmarks : ∀ c ∈ name, c ≠ ':' ∧ c ≠ '<') (rest : List Char) : headFrom [] (name ++ rest) = none := by
  obtain ⟨c, name, rfl⟩ := List.exists_cons_of_ne_nil hne
  simp only [isAsciiName, String.toList_ofList] at h
  by_cases hc : startsName c = true
  · rw [hc, Bool.true_and, List.all_eq_false] at h
    rw [List.cons_append, headFrom_cons (by simpa using hc)]
    exact headFrom_eq_none (by simpa using h) (fun d hd => hmarks d (List.mem_cons_of_mem _ hd)) (by simp) rest
  · rw [List.cons_append, headFrom.eq_def]
    simp [hc]

theorem wrapped?_eq_some_iff {text head inner : String} : wrapped? text = some (head, inner) ↔
    headFrom [] text.toList = some (head.toList, inner.toList ++ ['>']) ∧ IsInner inner.toList := by
  constructor
  · intro h
    refine ⟨?_, isInner_of_wrapped? h⟩
    simp only [wrapped?, Option.bind_eq_bind, Option.bind_eq_some_iff, Prod.exists, beforeFinalAngle_eq_some_iff] at h
    obtain ⟨headChars, _, hhead, cs, rfl, h⟩ := h
    split at h
    · simp at h
    · simp only [Option.some.injEq, Prod.mk.injEq] at h
      obtain ⟨rfl, rfl⟩ := h
      simpa using hhead
  · rintro ⟨hhead, hinner⟩
    have hangle : beforeFinalAngle (inner.toList ++ ['>']) = some inner.toList := beforeFinalAngle_eq_some_iff.mpr rfl
    simp only [wrapped?, hhead, hangle, Option.bind_eq_bind, Option.bind_some, hinner.one_argument]
    rw [if_neg (by simp [hinner.ne_nil, hinner.on_one_line])]
    simp

theorem sequenceElement?_eq_some_iff {text element : String} :
    sequenceElement? text = some element ↔ wrapped? text = some ("Vec", element) := by
  unfold sequenceElement?
  split
  · next inner hw => simp [hw]
  · next hw => simpa using hw element

/-- The name in front of a bracket ends there, and a path of names stands in front of it. -/
theorem exists_path_of_headFrom {head : List Char} (h : headFrom segment cs = some (head, rest))
    (hsegment : ∀ c ∈ segment, continuesName c = true) : ∃ path, segment.reverse ++ cs = path ++ head ++ '<' :: rest ∧
      ∀ c ∈ path ++ head, continuesName c = true ∨ c = ':' := by
  fun_induction headFrom segment cs with
  | case1 => simp at h
  | case2 segment c more hc ih =>
    have hnext : continuesName c = true := by
      split at hc
      · exact continuesName_of_startsName hc
      · exact hc
    obtain ⟨path, heq, hpath⟩ := ih h (by simpa [hnext] using hsegment)
    exact ⟨path, by simpa using heq, hpath⟩
  | case3 => simp at h
  | case4 segment c more _ _ hangle =>
    obtain ⟨rfl, rfl⟩ := Prod.mk.inj (Option.some.inj h)
    obtain rfl := eq_of_beq hangle
    exact ⟨[], rfl, fun d hd => Or.inl (hsegment d (by simpa using hd))⟩
  | case5 segment _ _ more _ ih =>
    obtain ⟨path, heq, hpath⟩ := ih h (by simp)
    refine ⟨segment.reverse ++ [':', ':'] ++ path, by simpa using heq, fun d hd => ?_⟩
    simp only [List.append_assoc, List.mem_append, List.mem_reverse] at hd hpath
    rcases hd with hd | hd | hd
    · exact Or.inl (hsegment d hd)
    · exact Or.inr (by simpa using hd)
    · exact hpath d hd
  | case6 => simp at h

/-- A character of an ASCII name begins no literal and is no blank. -/
theorem isPlain_of_continuesName (h : continuesName c = true) : isPlain c = true := by
  have hblank : Unicode.isBlank c = false := by
    rw [← Bool.not_eq_true]
    intro hc
    have hall : ∀ n ∈ Lexer.gapCodes, continuesName (Char.ofNat n) = false := by decide
    have := hall c.toNat (Lexer.mem_gapCodes (by simp [Lexer.isGap, hc]))
    rw [Char.ofNat_toNat, h] at this
    exact absurd this (by decide)
  have hmark : ∀ d ∈ ['"', '\'', '\\'], continuesName d = false := List.all_iff_forall_prop.mp (by decide)
  have hne : ∀ d ∈ ['"', '\'', '\\'], c ≠ d := by
    rintro d hd rfl
    simp [hmark c hd] at h
  simp only [List.forall_mem_cons] at hne
  simp [isPlain, hblank, hne]

/-- An argument in brackets behind names and marks is spaced like a text of its own. -/
theorem tightFrom_enclosed {front : List Char} (hfront : ∀ c ∈ front, isPlain c = true)
    (hlast : front.getLast?.any isWordChar = false) (inner : List Char) :
    tightFrom .code none false (front ++ (inner ++ ['>'])) = front ++ (tightFrom .code none false inner ++ ['>']) := by
  rw [tightFrom_append (isCopied_of_isPlain hfront), Option.or_none, tightFrom_of_not_word hlast,
    tightFrom_append_angle]

/-- A text that ends in a bracket is not trimmed there. -/
theorem toList_tight_of_angle {text : String} (h : text.toList = cs ++ ['>']) :
    (tight text).toList = tightFrom .code none false text.toList := by
  refine toList_tight ?_
  rw [h, List.getLast?_concat]
  intro c hc
  obtain rfl := Option.some.inj hc
  decide

/-- The element of a spaced sequence type is spaced, under any path. -/
theorem tightFrom_of_sequenceElement? {text element : String} (h : sequenceElement? text = some element)
    (htight : tight text = text) : tightFrom .code none false element.toList = element.toList := by
  have hhead := (wrapped?_eq_some_iff.mp (sequenceElement?_eq_some_iff.mp h)).1
  obtain ⟨path, htext, hpath⟩ := exists_path_of_headFrom hhead (by simp)
  have hfront : ∀ c ∈ path ++ "Vec".toList ++ ['<'], isPlain c = true := by
    intro c hc
    rcases List.mem_append.mp hc with hc | hc
    · rcases hpath c hc with hc | rfl
      · exact isPlain_of_continuesName hc
      · decide
    · obtain rfl := List.mem_singleton.mp hc
      decide
  have henclosed : text.toList = path ++ "Vec".toList ++ ['<'] ++ (element.toList ++ ['>']) := by
    simpa using htext
  have hspaced : (tight text).toList = tightFrom .code none false text.toList :=
    toList_tight_of_angle (henclosed.trans (List.append_assoc _ _ _).symm)
  rw [htight, henclosed, tightFrom_enclosed hfront (by rw [List.getLast?_concat]; decide)] at hspaced
  exact (List.append_cancel_right (List.append_cancel_left hspaced)).symm

/-- A spaced element makes a spaced type around it. -/
theorem tightFrom_wrap {name element : List Char} (hname : ∀ c ∈ name, continuesName c = true)
    (h : tightFrom .code none false element = element) :
    tightFrom .code none false (name ++ '<' :: (element ++ ['>'])) = name ++ '<' :: (element ++ ['>']) := by
  have hfront : ∀ c ∈ name ++ ['<'], isPlain c = true := by
    intro c hc
    rcases List.mem_append.mp hc with hc | hc
    · exact isPlain_of_continuesName (hname c hc)
    · obtain rfl := List.mem_singleton.mp hc
      decide
  have henclosed := tightFrom_enclosed hfront (by rw [List.getLast?_concat]; decide) element
  rw [h] at henclosed
  simpa using henclosed

theorem tight_sequenceOf {element : String} (h : tightFrom .code none false element.toList = element.toList) :
    tight (sequenceOf element) = sequenceOf element := by
  have htext : (sequenceOf element).toList = ['V', 'e', 'c'] ++ '<' :: (element.toList ++ ['>']) := by
    simp [sequenceOf]
  have hangle : (sequenceOf element).toList = ('V' :: 'e' :: 'c' :: '<' :: element.toList) ++ ['>'] := by simp [htext]
  have hname : ∀ c ∈ ['V', 'e', 'c'], continuesName c = true := List.all_iff_forall_prop.mp (by decide)
  rw [← String.toList_inj, toList_tight_of_angle hangle, htext, tightFrom_wrap hname h]

end CommandBinding.CodeText
