import CommandBinding.Proofs.LeafReading
import CommandBinding.Proofs.TightText
import Mathlib.Data.List.Chain

/-!
Texts that differ only in the white space between their tokens. Whatever the gaps are, the one spacing of such a text is
its tokens with one space between two of them exactly where two word characters face each other, and that text is in
its one spacing already.

The tokens here are coarser than those of the lexer: a word may begin with a digit, an operator is one mark after the
other, and nothing is said about what the tokens mean.
-/
namespace CommandBinding.CodeText

/-- Whether a text stands between two marks `quote` without ending there: every mark in it is behind a backslash, and so
is the character behind every other backslash. -/
def isQuotable (quote : Char) : List Char → Bool
  | [] => true
  | ['\\'] => false
  | '\\' :: _ :: rest => isQuotable quote rest
  | c :: rest => c != quote && isQuotable quote rest

/-- A token of a text, told apart from others by its characters alone. -/
inductive TextToken where
  | word (cs : List Char)
  | lifetime (name : List Char)
  | string (body : List Char)
  | character (body : List Char)
  | mark (c : Char)
deriving DecidableEq, Repr

namespace TextToken

def chars : TextToken → List Char
  | word cs => cs
  | lifetime name => '\'' :: name
  | string body => '"' :: body ++ ['"']
  | character body => '\'' :: body ++ ['\'']
  | mark c => [c]

def isWord (cs : List Char) : Bool :=
  !cs.isEmpty && cs.all isWordChar

/-- One character, or what a backslash stands in front of. -/
def isCharacterBody : List Char → Bool
  | [c] => c != '\'' && c != '\\'
  | '\\' :: _ :: rest => isQuotable '\'' rest
  | _ => false

def isValid : TextToken → Bool
  | word cs | lifetime cs => isWord cs
  | string body => isQuotable '"' body
  | character body => isCharacterBody body
  | mark c => !Unicode.isBlank c && !isWordChar c && c != '"' && c != '\''

def mayPrecede : TextToken → TextToken → Bool
  | lifetime _, lifetime _ | lifetime _, character _ => false
  | _, _ => true

end TextToken

def AreTokens (ts : List TextToken) : Prop :=
  (∀ t ∈ ts, t.isValid = true) ∧ ts.IsChain fun t u => t.mayPrecede u = true

def face (last next : Option Char) : Bool :=
  last.any isWordChar && next.any isWordChar

/-- The texts of tokens behind the character `last`: a gap of white space, maybe of none, stands in front of every token
and behind the last one, and there is some where two word characters face each other. -/
inductive HasGaps : (last : Option Char) → List TextToken → List Char → Prop
  | nil {last : Option Char} {run : List Char} : (∀ c ∈ run, Unicode.isBlank c = true) → HasGaps last [] run
  | cons {last : Option Char} {t : TextToken} {ts : List TextToken} {run cs : List Char} :
      (∀ c ∈ run, Unicode.isBlank c = true) → (run = [] → face last t.chars.head? = false) →
      HasGaps t.chars.getLast? ts cs → HasGaps last (t :: ts) (run ++ (t.chars ++ cs))

variable {cs rest run : List Char} {c quote : Char} {t : TextToken} {ts : List TextToken} {xs : List (List Char)}
  {last : Option Char}

/-! Every token is a chunk in front of whatever may follow it. -/

theorem not_blank_of_isWordChar (h : isWordChar c = true) : Unicode.isBlank c = false := by
  rw [← Bool.not_eq_true]
  intro hblank
  have hall : ∀ n ∈ Lexer.gapCodes, isWordChar (Char.ofNat n) = false := by decide +kernel
  have hc := hall c.toNat (Lexer.mem_gapCodes (by simp [Lexer.isGap, hblank]))
  rw [Char.ofNat_toNat, h] at hc
  exact Bool.noConfusion hc

theorem isPlain_of_isWordChar (h : isWordChar c = true) : isPlain c = true := by
  have hmark : ∀ d ∈ ['"', '\'', '\\'], isWordChar d = false := List.all_iff_forall_prop.mp (by decide)
  have hne : ∀ d ∈ ['"', '\'', '\\'], c ≠ d := by
    rintro d hd rfl
    simp [hmark c hd] at h
  simp only [List.forall_mem_cons] at hne
  simp [isPlain, not_blank_of_isWordChar h, hne]

theorem isCopied_quotable (h : isQuotable quote cs = true) (hquote : quote ≠ '\\') :
    isCopied (.literal quote) (cs ++ [quote]) = true := by
  fun_induction isQuotable quote cs with
  | case1 => simp [isCopied, insideLiteral, hquote]
  | case2 => simp at h
  | case3 escaped rest ih =>
    have hrest := ih h
    simpa [isCopied, insideLiteral] using hrest
  | case4 c rest hlast hescape ih =>
    have hc : c ≠ '\\' := by
      rintro rfl
      cases rest with
      | nil => exact hlast rfl rfl
      | cons escaped rest => exact hescape escaped rest rfl rfl
    simp only [Bool.and_eq_true, bne_iff_ne] at h
    have hrest := ih h.2
    simpa [isCopied, insideLiteral, hc, h.1] using hrest

theorem isCopied_character (h : TextToken.isCharacterBody cs = true) :
    isCopied .code ('\'' :: cs ++ ['\'']) = true := by
  unfold TextToken.isCharacterBody at h
  split at h
  · next c =>
    simp only [Bool.and_eq_true, bne_iff_ne] at h
    simp [isCopied, afterCode, opensCharacter, insideLiteral, h.1, h.2]
    decide
  · next escaped rest =>
    have hrest := isCopied_quotable h (by decide)
    have hopened : Unicode.isBlank '\'' = false := by decide
    simpa [isCopied, afterCode, opensCharacter, insideLiteral, hopened] using hrest
  · simp at h

theorem copies_of_isValid (h : t.isValid = true) (hrest : ∀ name, t = .lifetime name → rest.head? ≠ some '\'') :
    Copies t.chars rest := by
  have hword {cs : List Char} (h : TextToken.isWord cs = true) : cs ≠ [] ∧ ∀ c ∈ cs, isPlain c = true := by
    simp only [TextToken.isWord, Bool.and_eq_true, Bool.not_eq_true', List.isEmpty_eq_false_iff, List.all_eq_true] at h
    exact ⟨h.1, fun c hc => isPlain_of_isWordChar (h.2 c hc)⟩
  cases t with
  | word cs =>
    obtain ⟨hne, hplain⟩ := hword h
    exact copies_of_isPlain hplain hne rest
  | lifetime name =>
    obtain ⟨hne, hplain⟩ := hword h
    exact copies_lifetime hplain hne (hrest name rfl)
  | string body =>
    have hopened : Unicode.isBlank '"' = false := by decide
    have hcopied : isCopied .code ('"' :: body ++ ['"']) = true := by
      have hbody := isCopied_quotable h (by decide)
      simpa [isCopied, afterCode, hopened] using hbody
    exact copies_of_isCopied hcopied (List.cons_ne_nil _ _) rest
  | character body => exact copies_of_isCopied (isCopied_character h) (List.cons_ne_nil _ _) rest
  | mark c =>
    simp only [TextToken.isValid, Bool.and_eq_true, Bool.not_eq_true', bne_iff_ne] at h
    obtain ⟨⟨⟨hblank, -⟩, hstring⟩, hquote⟩ := h
    have hcopied : isCopied .code [c] = true := by simp [isCopied, afterCode, hblank, hstring, hquote]
    exact copies_of_isCopied hcopied (List.cons_ne_nil _ _) rest

/-- Only a lifetime and a character literal begin with an apostrophe, and those may not stand behind a lifetime. -/
theorem head?_ne_of_mayPrecede {name : List Char} (h : (TextToken.lifetime name).mayPrecede t = true)
    (ht : t.isValid = true) : t.chars.head? ≠ some '\'' := by
  have hapostrophe : isWordChar '\'' = false := by decide
  cases t with
  | word cs =>
    intro hhead
    simp only [TextToken.isValid, TextToken.isWord, Bool.and_eq_true, List.all_eq_true] at ht
    have hword := ht.2 '\'' (List.mem_of_head? hhead)
    rw [hapostrophe] at hword
    exact Bool.noConfusion hword
  | lifetime => exact Bool.noConfusion h
  | string => simp [TextToken.chars]
  | character => exact Bool.noConfusion h
  | mark c =>
    simp only [TextToken.isValid, Bool.and_eq_true, bne_iff_ne] at ht
    simpa [TextToken.chars] using ht.2

theorem areTokens_cons (h : AreTokens (t :: ts)) : AreTokens ts :=
  ⟨fun u hu => h.1 u (List.mem_cons_of_mem _ hu), (List.isChain_cons.mp h.2).2⟩

theorem Spaced.behind_run (hrun : ∀ c ∈ run, Unicode.isBlank c = true) (hne : xs ≠ []) (h : Spaced xs cs) :
    Spaced xs (run ++ cs) := by
  induction run with
  | nil => exact h
  | cons c run ih =>
    have hmore := ih fun d hd => hrun d (List.mem_cons_of_mem _ hd)
    exact .blank c (hrun c (List.mem_cons_self ..)) hne hmore

/-- A gap in front of what begins with `next`, and that behind it: it begins with a blank or with `next`. -/
theorem head?_behind_run (hrun : ∀ c ∈ run, Unicode.isBlank c = true) (hc : (run ++ cs).head? = some c) :
    Unicode.isBlank c = true ∨ run = [] ∧ cs.head? = some c := by
  cases run with
  | nil => exact Or.inr ⟨rfl, hc⟩
  | cons d run =>
    obtain rfl := Option.some.inj hc
    exact Or.inl (hrun d (List.mem_cons_self ..))

theorem exists_spaced_of_hasGaps (hts : AreTokens ts) (h : HasGaps last ts cs) : ∃ front run, cs = front ++ run ∧
    (∀ c ∈ run, Unicode.isBlank c = true) ∧ Spaced (ts.map TextToken.chars) front ∧
    ∀ c, front.head? = some c → Unicode.isBlank c = true ∨
      face last (some c) = false ∧ ∃ t, ts.head? = some t ∧ t.chars.head? = some c := by
  induction h with
  | @nil last run hrun => exact ⟨[], run, rfl, hrun, .nil, by simp⟩
  | @cons last t ts run cs hrun hface _ ih =>
    obtain ⟨front, behind, rfl, hbehind, hspaced, hhead⟩ := ih (areTokens_cons hts)
    have ht := hts.1 t (List.mem_cons_self ..)
    have hnext (c : Char) (hc : front.head? = some c) : isWordChar c = true → t.chars.getLast?.any isWordChar = false := by
      intro hword
      rcases hhead c hc with hblank | ⟨hapart, -⟩
      · rw [not_blank_of_isWordChar hword] at hblank
        exact Bool.noConfusion hblank
      · simpa [face, hword] using hapart
    have hcopies : Copies t.chars front := by
      refine copies_of_isValid ht ?_
      rintro name rfl hquote
      rcases hhead _ hquote with hblank | ⟨-, u, hu, hchars⟩
      · exact absurd hblank (by decide)
      · have hmay := (List.isChain_cons.mp hts.2).1 u hu
        have hvalid := hts.1 u (List.mem_cons_of_mem _ (List.mem_of_head? hu))
        exact head?_ne_of_mayPrecede hmay hvalid hchars
    have hapart : ¬(t.chars.getLast?.any isWordChar = true ∧ front.head?.any isWordChar = true) := by
      rintro ⟨hlast, hfront⟩
      obtain ⟨c, hc, hword⟩ := (Option.any_eq_true _ _).mp hfront
      rw [hnext c hc hword] at hlast
      exact Bool.noConfusion hlast
    have hchunks : Spaced ((t :: ts).map TextToken.chars) (run ++ (t.chars ++ front)) :=
      .behind_run hrun (List.cons_ne_nil _ _) (.cons hcopies hapart hspaced)
    refine ⟨run ++ (t.chars ++ front), behind, by simp, hbehind, hchunks, fun c hc => ?_⟩
    refine (head?_behind_run hrun hc).imp_right ?_
    rintro ⟨hempty, hc⟩
    have hchars : t.chars.head? = some c := by
      rwa [List.head?_append_of_ne_nil _ hcopies.ne_nil] at hc
    exact ⟨hchars ▸ hface hempty, t, rfl, hchars⟩

theorem trimBlanks_append (hrun : ∀ c ∈ run, Unicode.isBlank c = true) (cs : List Char) :
    trimBlanks (cs ++ run) = trimBlanks cs := by
  have hreverse : ∀ c ∈ run.reverse, Unicode.isBlank c = true := fun c hc => hrun c (List.mem_reverse.mp hc)
  have hdrop (front : List Char) : (front ++ run).reverse.dropWhile Unicode.isBlank =
      front.reverse.dropWhile Unicode.isBlank := by
    rw [List.reverse_append, List.dropWhile_append_of_pos hreverse]
  rw [trimBlanks, trimBlanks, List.dropWhile_append]
  split
  · next hempty =>
    rw [List.isEmpty_iff] at hempty
    have hblank : (run ++ []).dropWhile Unicode.isBlank = [] := List.dropWhile_append_of_pos hrun
    rw [List.append_nil] at hblank
    rw [hempty, hblank]
  · rw [hdrop]

theorem tight_of_hasGaps {text : String} (hts : AreTokens ts) (h : HasGaps none ts text.toList) :
    (tight text).toList = glued (ts.map TextToken.chars) := by
  obtain ⟨front, run, htext, hrun, hspaced, -⟩ := exists_spaced_of_hasGaps hts h
  have hfront : tight text = tight (String.ofList front) := by
    rw [tight, tight, htext, String.toList_ofList, trimBlanks_append hrun]
  rw [hfront]
  exact tight_of_spaced (by simpa using hspaced)

theorem hasGaps_gluedBehind (last : Option Char) (ts : List TextToken) :
    HasGaps last ts (gluedBehind last (ts.map TextToken.chars)) := by
  induction ts generalizing last with
  | nil => exact .nil (by simp [gluedBehind])
  | cons t ts ih =>
    have hspace : Unicode.isBlank ' ' = true := by decide
    rw [List.map_cons, gluedBehind, List.append_assoc]
    refine .cons ?_ ?_ (ih _)
    · split <;> simp [hspace]
    · intro hnone
      rw [← Bool.not_eq_true]
      intro hface
      rw [face] at hface
      simp [hface] at hnone

/-- The one spacing of a text depends on its tokens alone. -/
theorem tight_spacing {text : String} (hts : AreTokens ts) (h : HasGaps none ts text.toList) :
    (tight text).toList = glued (ts.map TextToken.chars) ∧
      (∀ other : String, HasGaps none ts other.toList → tight other = tight text) ∧ tight (tight text) = tight text := by
  have hglued := tight_of_hasGaps hts h
  have hsame (other : String) (hother : HasGaps none ts other.toList) : tight other = tight text := by
    rw [← String.toList_inj, hglued]
    exact tight_of_hasGaps hts hother
  refine ⟨hglued, hsame, hsame _ ?_⟩
  rw [hglued]
  exact hasGaps_gluedBehind none ts

/-- `'\\'' 'a T` with two different gaps. -/
theorem tight_spacing_of_lifetime_and_word :
    AreTokens [.character ['\\', '\''], .lifetime ['a'], .word ['T']] ∧
      HasGaps none [.character ['\\', '\''], .lifetime ['a'], .word ['T']] "\t'\\'''a  T".toList ∧
      HasGaps none [.character ['\\', '\''], .lifetime ['a'], .word ['T']] "'\\'' 'a\nT ".toList ∧
      tight "\t'\\'''a  T" = tight "'\\'' 'a\nT " ∧ tight (tight "'\\'' 'a\nT ") = tight "'\\'' 'a\nT " := by
  have htokens : AreTokens [.character ['\\', '\''], .lifetime ['a'], .word ['T']] := by
    refine ⟨?_, ?_⟩ <;> decide
  have hgap {run : List Char} (h : run.all Unicode.isBlank = true) : ∀ c ∈ run, Unicode.isBlank c = true :=
    List.all_eq_true.mp h
  have hfirst : HasGaps none [.character ['\\', '\''], .lifetime ['a'], .word ['T']] "\t'\\'''a  T".toList :=
    @HasGaps.cons _ _ _ ['\t'] _ (hgap rfl) (by decide) <| @HasGaps.cons _ _ _ [] _ (hgap rfl) (by decide) <|
      @HasGaps.cons _ _ _ [' ', ' '] _ (hgap rfl) (by decide) (@HasGaps.nil _ [] (hgap rfl))
  have hsecond : HasGaps none [.character ['\\', '\''], .lifetime ['a'], .word ['T']] "'\\'' 'a\nT ".toList :=
    @HasGaps.cons _ _ _ [] _ (hgap rfl) (by decide) <| @HasGaps.cons _ _ _ [' '] _ (hgap rfl) (by decide) <|
      @HasGaps.cons _ _ _ ['\n'] _ (hgap rfl) (by decide) (@HasGaps.nil _ [' '] (hgap rfl))
  obtain ⟨-, hsame, hagain⟩ := tight_spacing htokens hsecond
  exact ⟨htokens, hfirst, hsecond, hsame _ hfirst, hagain⟩

end CommandBinding.CodeText
