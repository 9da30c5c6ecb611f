import CommandBinding.CodeText
import Mathlib.Tactic.Common

/-!
The one spacing of a text. It keeps every character that is no blank; and a text made of chunks, each of which is
copied in front of the rest, becomes these chunks with a space between two of them exactly where two word characters
face each other.
-/
namespace CommandBinding

theorem filter_dropWhile_isBlank (cs : List Char) :
    (cs.dropWhile Unicode.isBlank).filter (!Unicode.isBlank ·) = cs.filter (!Unicode.isBlank ·) := by
  induction cs with
  | nil => rfl
  | cons c cs ih =>
    by_cases hc : Unicode.isBlank c = true
    · simp [hc, ih]
    · simp [hc]

/-- Trimming takes off blanks only. -/
theorem filter_trimBlanks (cs : List Char) :
    (trimBlanks cs).filter (!Unicode.isBlank ·) = cs.filter (!Unicode.isBlank ·) := by
  rw [trimBlanks, List.filter_reverse, filter_dropWhile_isBlank, List.filter_reverse, List.reverse_reverse,
    filter_dropWhile_isBlank]

namespace CodeText

variable {cs rest x : List Char} {c : Char} {xs : List (List Char)} {last : Option Char} {gap : Bool}

theorem filter_tightFrom (region : Region) (last : Option Char) (gap : Bool) (cs : List Char) :
    (tightFrom region last gap cs).filter (!Unicode.isBlank ·) = cs.filter (!Unicode.isBlank ·) := by
  have hspace : Unicode.isBlank ' ' = true := by decide
  fun_induction tightFrom region last gap cs with
  | case1 => rfl
  | case2 _ _ quote c rest ih => rw [List.filter_cons, List.filter_cons, ih]
  | case3 _ _ quote c rest ih => rw [List.filter_cons, List.filter_cons, ih]
  | case4 last gap c rest hc ih => simp [hc, ih]
  | case5 last gap c rest hc _ ih => simp [hc, ih, hspace]
  | case6 last gap c rest hc _ ih => simp [hc, ih]

/-- The one spacing of a text differs from it in blanks only. -/
theorem filter_tight (text : String) :
    (tight text).toList.filter (!Unicode.isBlank ·) = text.toList.filter (!Unicode.isBlank ·) := by
  rw [tight, String.toList_ofList, filter_tightFrom, filter_trimBlanks]

theorem count_tight (text : String) (hc : Unicode.isBlank c = false) :
    (tight text).toList.count c = text.toList.count c := by
  have hkept : (!Unicode.isBlank c) = true := by rw [hc]; rfl
  rw [← List.count_filter (p := (!Unicode.isBlank ·)) hkept, filter_tight,
    List.count_filter (p := (!Unicode.isBlank ·)) hkept]

/-! Chunks. -/

/-- Whether a text, read from a region on, ends in code and has no blank and no stray apostrophe there. -/
def isCopied : Region → List Char → Bool
  | .code, [] => true
  | .literal _, [] | .escaped _, [] => false
  | .code, c :: rest =>
    !Unicode.isBlank c && (c != '\'' || opensCharacter rest) && isCopied (afterCode c rest) rest
  | .literal quote, c :: rest => isCopied (insideLiteral quote c) rest
  | .escaped quote, _ :: rest => isCopied (.literal quote) rest

/-- A chunk of a text is copied in front of the rest. -/
structure Copies (x rest : List Char) : Prop where
  ne_nil : x ≠ []
  head_not_blank : ∀ c ∈ x.head?, Unicode.isBlank c = false
  last_not_blank : ∀ c ∈ x.getLast?, Unicode.isBlank c = false
  eq : ∀ last, tightFrom .code last false (x ++ rest) = x ++ tightFrom .code x.getLast? false rest

theorem opensCharacter_iff : opensCharacter cs = true ↔ cs[0]? = some '\\' ∨ cs[1]? = some '\'' := by
  unfold opensCharacter
  split
  · simp
  · simp
  · next hescape hquote =>
    cases cs with
    | nil => simp
    | cons c cs =>
      have hc : c ≠ '\\' := fun h => hescape cs (by rw [h])
      cases cs with
      | nil => simp [hc]
      | cons d cs =>
        have hd : d ≠ '\'' := fun h => hquote c cs (by rw [h])
        simp [hc, hd]

theorem opensCharacter_append (h : opensCharacter cs = true) (rest : List Char) :
    opensCharacter (cs ++ rest) = true := by
  have hleft {i : Nat} {d : Char} (h : cs[i]? = some d) : (cs ++ rest)[i]? = some d := by
    rwa [List.getElem?_append_left (List.getElem?_eq_some_iff.mp h).1]
  rw [opensCharacter_iff] at h ⊢
  exact h.imp hleft hleft

theorem afterCode_append (h : c = '\'' → opensCharacter x = true) (rest : List Char) :
    afterCode c (x ++ rest) = afterCode c x := by
  by_cases hc : c = '\''
  · simp [afterCode, hc, h hc, opensCharacter_append (h hc)]
  · simp [afterCode, hc]

theorem tightFrom_code (hc : Unicode.isBlank c = false) (last : Option Char) (cs : List Char) :
    tightFrom .code last false (c :: cs) = c :: tightFrom (afterCode c cs) (some c) false cs := by
  simp [tightFrom, hc]

/-- Code with a chunk in front of it is read in the region behind the chunk. -/
theorem tightFrom_append {region : Region} (h : isCopied region x = true) (last : Option Char) (rest : List Char) :
    tightFrom region last false (x ++ rest) = x ++ tightFrom .code (x.getLast?.or last) false rest := by
  fun_induction isCopied region x generalizing last with
  | case1 => rfl
  | case2 => simp at h
  | case3 => simp at h
  | case4 c more ih =>
    simp only [Bool.and_eq_true, Bool.or_eq_true, Bool.not_eq_true', bne_iff_ne] at h
    obtain ⟨⟨hblank, hquote⟩, hmore⟩ := h
    have hregion : afterCode c (more ++ rest) = afterCode c more :=
      afterCode_append (fun hc => hquote.resolve_left fun hne => hne hc) rest
    rw [List.cons_append, tightFrom_code hblank, hregion, ih hmore, List.getLast?_cons]
    cases more.getLast? <;> rfl
  | case5 quote c more ih =>
    rw [List.cons_append, tightFrom, ih h, List.getLast?_cons]
    cases more.getLast? <;> rfl
  | case6 quote c more ih =>
    rw [List.cons_append, tightFrom, ih h, List.getLast?_cons]
    cases more.getLast? <;> rfl

theorem last_not_blank {region : Region} (h : isCopied region x = true)
    (hregion : ∀ quote, region = .literal quote ∨ region = .escaped quote → Unicode.isBlank quote = false) :
    ∀ c ∈ x.getLast?, Unicode.isBlank c = false := by
  fun_induction isCopied region x with
  | case1 => simp
  | case2 => simp at h
  | case3 => simp at h
  | case4 c more ih =>
    simp only [Bool.and_eq_true, Bool.not_eq_true'] at h
    obtain ⟨⟨hblank, -⟩, hmore⟩ := h
    have hquotes : ∀ quote, afterCode c more = .literal quote ∨ afterCode c more = .escaped quote →
        Unicode.isBlank quote = false := by
      unfold afterCode
      split_ifs
      · simp
        decide
      · simp
        decide
      · simp
    cases more with
    | nil => simpa using hblank
    | cons d more => exact ih hmore hquotes
  | case5 quote c more ih =>
    have hquote := hregion quote (Or.inl rfl)
    cases more with
    | nil =>
      have hc : c = quote := by
        unfold insideLiteral at h
        split_ifs at h with hescape hend
        · simp [isCopied] at h
        · exact eq_of_beq hend
        · simp [isCopied] at h
      simpa [hc] using hquote
    | cons d more =>
      refine ih h ?_
      unfold insideLiteral
      split_ifs <;> simp [hquote]
  | case6 quote c more ih =>
    cases more with
    | nil => simp [isCopied] at h
    | cons d more => exact ih h (by simpa using hregion)

theorem copies_of_isCopied (h : isCopied .code x = true) (hne : x ≠ []) (rest : List Char) : Copies x rest where
  ne_nil := hne
  head_not_blank := by
    cases x with
    | nil => simp
    | cons c more =>
      simp only [isCopied, Bool.and_eq_true, Bool.not_eq_true'] at h
      simpa using h.1.1
  last_not_blank := last_not_blank h (by simp)
  eq last := by
    rw [tightFrom_append h, List.getLast?_eq_some_getLast hne]
    rfl

/-- A character that neither ends a chunk nor begins a literal. -/
def isPlain (c : Char) : Bool :=
  !Unicode.isBlank c && c != '"' && c != '\'' && c != '\\'

theorem isCopied_of_isPlain (h : ∀ c ∈ x, isPlain c = true) : isCopied .code x = true := by
  induction x with
  | nil => rfl
  | cons c more ih =>
    have hc := h c (List.mem_cons_self ..)
    simp only [isPlain, Bool.and_eq_true, Bool.not_eq_true', bne_iff_ne] at hc
    obtain ⟨⟨⟨hblank, hstring⟩, hcharacter⟩, -⟩ := hc
    have hregion : afterCode c more = .code := by simp [afterCode, hstring, hcharacter]
    simp [isCopied, hblank, hcharacter, hregion, ih fun d hd => h d (List.mem_cons_of_mem _ hd)]

theorem copies_of_isPlain (h : ∀ c ∈ x, isPlain c = true) (hne : x ≠ []) (rest : List Char) : Copies x rest :=
  copies_of_isCopied (isCopied_of_isPlain h) hne rest

/-- A lifetime is copied unless the text goes on like a character literal. -/
theorem copies_lifetime (h : ∀ c ∈ x, isPlain c = true) (hne : x ≠ []) (hrest : rest.head? ≠ some '\'') :
    Copies ('\'' :: x) rest where
  ne_nil := List.cons_ne_nil _ _
  head_not_blank := by
    intro c hc
    obtain rfl := Option.some.inj hc
    decide
  last_not_blank := by
    rw [List.getLast?_cons_of_ne_nil hne]
    exact last_not_blank (isCopied_of_isPlain h) (by simp)
  eq last := by
    have hcode : afterCode '\'' (x ++ rest) = .code := by
      have hopens : ¬opensCharacter (x ++ rest) = true := by
        obtain ⟨c, more, rfl⟩ := List.exists_cons_of_ne_nil hne
        have hc := h c (List.mem_cons_self ..)
        simp only [isPlain, Bool.and_eq_true, bne_iff_ne] at hc
        rw [opensCharacter_iff]
        rintro (hescape | hquote)
        · exact hc.2 (Option.some.inj hescape)
        · cases more with
          | nil => exact hrest (by simpa [List.head?_eq_getElem?] using hquote)
          | cons d more =>
            obtain rfl := Option.some.inj hquote
            exact absurd (h '\'' (by simp)) (by decide)
      simp [afterCode, hopens]
    rw [List.cons_append, tightFrom_code (by decide), hcode, tightFrom_append (isCopied_of_isPlain h),
      List.getLast?_cons_of_ne_nil hne, List.getLast?_eq_some_getLast hne]
    rfl

/-- A text that is made of chunks with blanks between them, and with some where two word characters would touch. -/
inductive Spaced : List (List Char) → List Char → Prop
  | nil : Spaced [] []
  | blank {xs : List (List Char)} {cs : List Char} (c : Char) : Unicode.isBlank c = true → xs ≠ [] → Spaced xs cs →
      Spaced xs (c :: cs)
  | cons {x : List Char} {xs : List (List Char)} {cs : List Char} : Copies x cs →
      ¬(x.getLast?.any isWordChar = true ∧ cs.head?.any isWordChar = true) → Spaced xs cs → Spaced (x :: xs) (x ++ cs)

/-- Chunks behind a character, with a space between two of them exactly where two word characters face each other. -/
def gluedBehind (last : Option Char) : List (List Char) → List Char
  | [] => []
  | x :: xs =>
    (if last.any isWordChar && x.head?.any isWordChar then [' '] else []) ++ x ++ gluedBehind x.getLast? xs

def glued (xs : List (List Char)) : List Char :=
  gluedBehind none xs

/-- Chunks behind a mark are glued like chunks of their own. -/
theorem gluedBehind_append_mark {c : Char} (h : isWordChar c = false) (last : Option Char) (xs ys : List (List Char)) :
    gluedBehind last (xs ++ [c] :: ys) = gluedBehind last xs ++ c :: gluedBehind (some c) ys := by
  induction xs generalizing last with
  | nil => simp [gluedBehind, h]
  | cons x xs ih => simp [gluedBehind, ih]

theorem tightFrom_of_spaced (h : Spaced xs cs) (last : Option Char) (gap : Bool)
    (hgap : gap = false → ¬(last.any isWordChar = true ∧ cs.head?.any isWordChar = true)) :
    tightFrom .code last gap cs = gluedBehind last xs := by
  -- Between two chunks the reader knows the last character written, and whether a blank stands behind it.
  induction h generalizing last gap with
  | nil => rfl
  | blank c hc _ _ ih =>
    rw [tightFrom, if_pos hc]
    exact ih last true (by simp)
  | @cons x xs cs hcopies hfacing _ ih =>
    have hbehind := ih x.getLast? false fun _ => hfacing
    have hcopied := hcopies.eq last
    obtain ⟨c, more, rfl⟩ := List.exists_cons_of_ne_nil hcopies.ne_nil
    have hblank := hcopies.head_not_blank c rfl
    have hspace : tightFrom .code last gap (c :: more ++ cs) =
        (if gap && last.any isWordChar && isWordChar c then [' '] else []) ++
          tightFrom .code last false (c :: more ++ cs) := by
      rw [List.cons_append, tightFrom_code hblank, tightFrom, hblank, if_neg Bool.false_ne_true]
      split <;> rfl
    have hsame : (gap && last.any isWordChar && isWordChar c) = (last.any isWordChar && isWordChar c) := by
      cases gap with
      | true => rw [Bool.true_and]
      | false =>
        have hapart := hgap rfl
        simp only [List.cons_append, List.head?_cons, Option.any_some, ← Bool.and_eq_true, Bool.not_eq_true] at hapart
        rw [hapart, Bool.false_and, Bool.false_and]
    rw [hspace, hsame, hcopied, hbehind, gluedBehind, List.append_assoc]
    rfl

theorem not_blank_of_spaced (h : Spaced xs cs) : ∀ c ∈ cs.getLast?, Unicode.isBlank c = false := by
  induction h with
  | nil => simp
  | @blank xs cs c _ hne hspaced ih =>
    have hcs : cs ≠ [] := by
      rintro rfl
      generalize hnil : [] = more at hspaced
      cases hspaced with
      | nil => exact hne rfl
      | blank => simp at hnil
      | cons hcopies => exact hcopies.ne_nil (List.append_eq_nil_iff.mp hnil.symm).1
    rwa [List.getLast?_cons_of_ne_nil hcs]
  | @cons x xs cs hcopies _ _ ih =>
    by_cases hcs : cs = []
    · rw [hcs, List.append_nil]
      exact hcopies.last_not_blank
    · rw [List.getLast?_append, List.getLast?_eq_some_getLast hcs, Option.some_or, ← List.getLast?_eq_some_getLast hcs]
      exact ih

theorem trimBlanks_of_not_blank (h : ∀ c ∈ cs.getLast?, Unicode.isBlank c = false) :
    trimBlanks cs = cs.dropWhile Unicode.isBlank := by
  have hlast : ∀ c ∈ (cs.dropWhile Unicode.isBlank).reverse.head?, Unicode.isBlank c = false := by
    intro c hc
    obtain ⟨front, hfront⟩ := List.dropWhile_suffix Unicode.isBlank (l := cs)
    rw [List.head?_reverse] at hc
    refine h c ?_
    rw [← hfront, List.getLast?_append, hc]
    rfl
  rw [trimBlanks]
  cases hreverse : (cs.dropWhile Unicode.isBlank).reverse with
  | nil => exact (List.reverse_eq_nil_iff.mp hreverse).symm
  | cons d more =>
    rw [hreverse] at hlast
    rw [List.dropWhile_cons_of_neg (by simpa using hlast), ← hreverse, List.reverse_reverse]

theorem tightFrom_dropWhile (gap : Bool) (cs : List Char) :
    tightFrom .code none gap cs = tightFrom .code none false (cs.dropWhile Unicode.isBlank) := by
  induction cs generalizing gap with
  | nil => rfl
  | cons c cs ih =>
    by_cases hc : Unicode.isBlank c = true
    · rw [tightFrom, if_pos hc, ih, List.dropWhile_cons_of_pos hc]
    · rw [List.dropWhile_cons_of_neg hc]
      simp [tightFrom, hc]

theorem tight_of_spaced {text : String} (h : Spaced xs text.toList) : (tight text).toList = glued xs := by
  rw [tight, String.toList_ofList, trimBlanks_of_not_blank (not_blank_of_spaced h), ← tightFrom_dropWhile false,
    tightFrom_of_spaced h none false (by simp)]
  rfl

def CopiesGlued : List (List Char) → Prop
  | [] => True
  | x :: xs => Copies x (gluedBehind x.getLast? xs) ∧ CopiesGlued xs

theorem spaced_gluedBehind (h : CopiesGlued xs) (last : Option Char) : Spaced xs (gluedBehind last xs) := by
  induction xs generalizing last with
  | nil => exact .nil
  | cons x xs ih =>
    obtain ⟨hcopies, hxs⟩ := h
    have hfacing : ¬(x.getLast?.any isWordChar = true ∧ (gluedBehind x.getLast? xs).head?.any isWordChar = true) := by
      cases xs with
      | nil => simp [gluedBehind]
      | cons y ys =>
        obtain ⟨c, more, rfl⟩ := List.exists_cons_of_ne_nil hxs.1.ne_nil
        have hspace : isWordChar ' ' = false := by decide
        rintro ⟨hx, hy⟩
        by_cases hc : isWordChar c = true
        · simp [gluedBehind, hx, hc, hspace] at hy
        · simp [gluedBehind, hx, hc] at hy
    have hspaced := Spaced.cons hcopies hfacing (ih hxs _)
    rw [gluedBehind]
    split
    · exact .blank ' ' (by decide) (List.cons_ne_nil _ _) hspaced
    · exact hspaced

theorem tight_of_glued {text : String} (h : CopiesGlued xs) (htext : text.toList = glued xs) : tight text = text := by
  rw [← String.toList_inj, htext]
  refine tight_of_spaced ?_
  rw [htext]
  exact spaced_gluedBehind h none

end CodeText

end CommandBinding
