import CommandBinding.Proofs.WordReading

/-!
Reading one token that is no bracket. The reader of tokens reads a word, a lifetime, a literal or a mark exactly where
this stands before the rest of the text.
-/
namespace CommandBinding.Lexer

open Lexeme

variable {cs rest : List Char} {c : Char} {text name : String} {t : Token} {joint : Bool}

theorem literal?_eq_none_iff : literal? cs = none ↔ literalEnd cs = none := by
  rw [literal?, Option.map_eq_none_iff]

theorem literalStarts_any_eq_false_iff : literalStarts.any (startsWith · cs) = false ↔
    ∀ start ∈ literalStarts, ¬start.toList <+: cs := by
  rw [List.any_eq_false]
  simp only [startsWith_iff]

theorem beginsComment_iff : BeginsComment cs ↔ startsWith "//" cs = true ∨ startsWith "/*" cs = true := by
  rw [startsWith_iff, startsWith_iff]
  rfl

theorem startsWithMark_cons_iff :
    startsWithMark (c :: cs) = true ↔ c ∈ marks ∧ ¬BeginsComment (c :: cs) := by
  simp only [startsWithMark, List.head?_cons, Option.any_some, Bool.and_eq_true, Bool.not_eq_true', beginsComment_iff,
    List.contains_iff_mem, and_assoc, not_or, Bool.not_eq_true]

theorem mark?_eq_none (hc : c ∉ marks) : mark? (c :: cs) = none := by
  have hquote : c ≠ '\'' := by
    rintro rfl
    exact absurd (by decide) hc
  unfold mark?
  split
  · next h => exact absurd (List.cons.inj h).1 hquote
  · next h =>
    obtain ⟨rfl, rfl⟩ := List.cons.inj h
    simp [startsWithMark, hc]
  · next h => simp at h

theorem leaf?_of_word (h : (Lexeme.word text).StandsBefore rest) :
    leaf? (text.toList ++ rest) = some (.word text, rest) := by
  obtain ⟨hword, hends, hbegins⟩ := h
  have hliteral := literal?_eq_none_iff.mpr (literalEnd_eq_none_of_isWord hword hbegins)
  have hmark : mark? (text.toList ++ rest) = none := by
    obtain ⟨c, more, htext, hc⟩ := head_of_isWord hword
    rw [htext, List.cons_append]
    refine mark?_eq_none fun hmem => ?_
    rw [not_isIdentifierStart_of_mem (List.mem_append_left _ hmem)] at hc
    simp at hc
  have hstarts : literalStarts.any (startsWith · (text.toList ++ rest)) = false := by
    rw [literalStarts_any_eq_false_iff]
    exact fun start hstart hprefix => hbegins (Or.inr ⟨start, hstart, hprefix⟩)
  have hread : word? (text.toList ++ rest) = some (text, rest) :=
    word?_eq_some_iff.mpr ⟨rfl, hword, hends, fun h => hbegins (Or.inl h)⟩
  simp [leaf?, hliteral, hmark, hstarts, hread]

theorem head?_eq_some_iff_isPrefix : cs.head? = some c ↔ [c] <+: cs := by
  cases cs <;> simp [eq_comm]

/-- What the characters of a word are. -/
theorem mem_word {d : Char} (h : IsWord text) (hd : d ∈ text.toList) :
    Unicode.isIdentifierStart d = true ∨ Unicode.isIdentifierContinue d = true ∨ d = '#' := by
  have hidentifier {name : String} (hname : Source.isIdentifier name = true) (hd : d ∈ name.toList) :
      Unicode.isIdentifierStart d = true ∨ Unicode.isIdentifierContinue d = true := by
    obtain ⟨c, more, hcs, hc, hmore⟩ := isIdentifier_iff.mp hname
    rw [hcs] at hd
    rcases List.mem_cons.mp hd with rfl | hd
    · exact Or.inl hc
    · exact Or.inr (hmore d hd)
  rcases h with hname | ⟨name, rfl, hname, -⟩
  · rcases hidentifier hname hd with hd | hd
    · exact Or.inl hd
    · exact Or.inr (Or.inl hd)
  · simp only [String.toList_append, List.mem_append] at hd
    rcases hd with hd | hd
    · have hraw : d = 'r' ∨ d = '#' := by simpa using hd
      rcases hraw with rfl | rfl
      · exact Or.inl (by decide)
      · exact Or.inr (Or.inr rfl)
    · rcases hidentifier hname hd with hd | hd
      · exact Or.inl hd
      · exact Or.inr (Or.inl hd)

theorem not_mem_word {d : Char} (h : IsWord text) (hd : d ∈ outsideWords) (hsharp : d ≠ '#') : d ∉ text.toList := by
  intro hmem
  rcases mem_word h hmem with hstart | hcontinue | rfl
  · rw [not_isIdentifierStart_of_mem hd] at hstart
    simp at hstart
  · rw [not_isIdentifierContinue_of_mem hd] at hcontinue
    simp at hcontinue
  · exact hsharp rfl

/-- The raw form begins a word exactly if it begins the text with the word. -/
theorem raw_isPrefix_iff (hword : IsWord text) (hbegins : ¬BeginsLiteral text rest) :
    ['r', '#'] <+: text.toList ++ rest ↔ ['r', '#'] <+: text.toList := by
  constructor
  · intro h
    obtain ⟨c, more, htext, -⟩ := head_of_isWord hword
    cases more with
    | nil =>
      rw [htext] at h
      obtain ⟨behind, heq⟩ := h
      obtain ⟨rfl, hrest⟩ := List.cons.inj heq
      refine absurd (Or.inl ⟨String.toList_inj.mp htext, ?_⟩) hbegins
      rw [show rest = '#' :: behind from hrest.symm]
      rfl
    | cons d more =>
      rw [htext] at h ⊢
      obtain ⟨behind, heq⟩ := h
      obtain ⟨rfl, hrest⟩ := List.cons.inj heq
      obtain ⟨rfl, -⟩ := List.cons.inj hrest
      exact ⟨more, rfl⟩
  · exact fun h => h.trans (List.prefix_append _ _)

theorem startsWith_singleton_iff : startsWith "'" cs = true ↔ cs.head? = some '\'' := by
  rw [startsWith_iff, head?_eq_some_iff_isPrefix]
  rfl

theorem startsWith_sharp_iff : startsWith "#" cs = true ↔ cs.head? = some '#' := by
  rw [startsWith_iff, head?_eq_some_iff_isPrefix]
  rfl

theorem startsWith_raw_iff : startsWith "r#" cs = true ↔ ['r', '#'] <+: cs :=
  startsWith_iff

theorem lifetime?_eq_some_lifetime_iff : lifetime? cs = some (.lifetime name, rest) ↔
    cs = name.toList ++ rest ∧ (Lexeme.lifetime name).StandsBefore rest := by
  constructor
  · intro h
    unfold lifetime? at h
    split at h
    · simp at h
    · next text behind hword =>
      split_ifs at h with hclash hliteral hstarts
      · simp at h
      · obtain ⟨rfl, rfl⟩ : text = name ∧ behind = rest := by simpa using h
        obtain ⟨rfl, hname, hends, hraw⟩ := word?_eq_some_iff.mp hword
        rw [Bool.not_eq_true, literalStarts_any_eq_false_iff] at hstarts
        have hbegins : ¬BeginsLiteral text behind := by
          rintro (h | ⟨start, hstart, hprefix⟩)
          · exact hraw h
          · exact hstarts start hstart hprefix
        simp only [Bool.or_eq_true, Bool.and_eq_true, Bool.not_eq_true', ← Bool.not_eq_true, startsWith_singleton_iff,
          startsWith_sharp_iff, startsWith_raw_iff, raw_isPrefix_iff hname hbegins, not_or, not_and,
          Classical.not_not] at hclash
        exact ⟨rfl, hname, hends, hbegins, hclash⟩
  · rintro ⟨rfl, hname, hends, hbegins, hquote, hraw⟩
    have hword : word? (name.toList ++ rest) = some (name, rest) :=
      word?_eq_some_iff.mpr ⟨rfl, hname, hends, fun h => hbegins (Or.inl h)⟩
    have hclash : ¬(startsWith "'" rest || startsWith "#" rest && !startsWith "r#" (name.toList ++ rest)) = true := by
      simp only [Bool.or_eq_true, Bool.and_eq_true, Bool.not_eq_true', ← Bool.not_eq_true, startsWith_singleton_iff,
        startsWith_sharp_iff, startsWith_raw_iff, raw_isPrefix_iff hname hbegins, not_or, not_and, Classical.not_not]
      exact ⟨hquote, hraw⟩
    have hstarts : ¬literalStarts.any (startsWith · (name.toList ++ rest)) = true := by
      rw [Bool.not_eq_true, literalStarts_any_eq_false_iff]
      exact fun start hstart hprefix => hbegins (Or.inr ⟨start, hstart, hprefix⟩)
    simp only [lifetime?, hword]
    rw [if_neg hclash, literalEnd_eq_none_of_isWord hname hbegins, if_neg (by simp), if_neg hstarts]

/-- A literal begins with a quote, with one of three letters or with a digit. -/
theorem head_of_literalEnd (h : literalEnd (c :: cs) = some rest) :
    c ∈ ['"', '\'', 'r', 'b', 'c'] ∨ c.isDigit = true := by
  by_contra hc
  rw [not_or, Bool.not_eq_true] at hc
  obtain ⟨hc, hdigit⟩ := hc
  have hquoted : quotedEnd (c :: cs) = none := by
    cases hend : quotedEnd (c :: cs) with
    | none => rfl
    | some behind =>
      have hheads : ∀ start ∈ literalStarts, start.toList.head? ∈ [some 'r', some 'b', some 'c'] := by decide
      rcases beginsLiteral_of_quotedEnd hend with hhead | hhead | ⟨start, hstart, behind, hprefix⟩
      · simp_all
      · simp_all
      · have hhead := hheads start hstart
        cases hchars : start.toList with
        | nil => simp [hchars] at hhead
        | cons d more =>
          rw [hchars] at hhead hprefix
          obtain ⟨rfl, -⟩ := List.cons.inj hprefix
          simp_all
  obtain ⟨hfloat, hinteger⟩ := number_eq_none cs hdigit
  rw [literalEnd, hquoted, hfloat, hinteger] at h
  simp at h

theorem literalEnd_eq_none (hc : c ∉ ['"', '\'', 'r', 'b', 'c']) (hdigit : c.isDigit = false) :
    literalEnd (c :: cs) = none := by
  cases h : literalEnd (c :: cs) with
  | none => rfl
  | some rest =>
    rcases head_of_literalEnd h with hhead | hhead
    · exact absurd hhead hc
    · simp [hdigit] at hhead

theorem leaf?_of_lifetime (h : (Lexeme.lifetime name).StandsBefore rest) :
    leaf? ('\'' :: (name.toList ++ rest)) = some (.lifetime name, rest) := by
  have hlifetime := lifetime?_eq_some_lifetime_iff.mpr ⟨rfl, h⟩
  obtain ⟨hword, -, -, hquote, -⟩ := h
  have hcharacter : Quoted.characterEnd .text (name.toList ++ rest) = none := by
    cases hend : Quoted.characterEnd .text (name.toList ++ rest) with
    | none => rfl
    | some behind =>
      have hbehind := Quoted.characterEnd_eq_some_iff.mp hend
      obtain ⟨c, more, hname, hc⟩ := head_of_isWord hword
      have hescape : c ≠ '\\' := by
        rintro rfl
        exact absurd hc (by decide)
      rw [hname, List.cons_append, Quoted.behindCharacter.eq_2 _ _ _ hescape] at hbehind
      split_ifs at hbehind
      cases more with
      | nil =>
        obtain rfl := Option.some.inj hbehind
        simp at hquote
      | cons d more =>
        obtain ⟨rfl, -⟩ := List.cons.inj (Option.some.inj hbehind)
        exact absurd (by simp [hname]) (not_mem_word (d := '\'') hword (by decide) (by decide))
  have hliteral : literal? ('\'' :: (name.toList ++ rest)) = none := by
    obtain ⟨hfloat, hinteger⟩ := number_eq_none (c := '\'') (name.toList ++ rest) (by decide)
    rw [literal?_eq_none_iff, literalEnd, quotedEnd, hcharacter, hfloat, hinteger]
    rfl
  simp [leaf?, hliteral, mark?, hlifetime]

theorem leaf?_of_unprintable : leaf? (unprintable.toList ++ rest) = some (.literal unprintable, rest) := by
  have hhead : unprintable.toList ++ rest = '(' :: ("/*ERROR*/)".toList ++ rest) := rfl
  have hliteral : literal? (unprintable.toList ++ rest) = none :=
    literal?_eq_none_iff.mpr (literalEnd_eq_none (by decide) (by decide))
  have hmark : mark? (unprintable.toList ++ rest) = none := mark?_eq_none (by decide)
  have hstarts : literalStarts.any (startsWith · (unprintable.toList ++ rest)) = false := by
    have hheads : ∀ start ∈ literalStarts, start.toList.head? ≠ some '(' ∧ start.toList ≠ [] := by decide
    rw [literalStarts_any_eq_false_iff]
    rintro start hstart ⟨behind, hprefix⟩
    obtain ⟨hne, hnil⟩ := hheads start hstart
    cases hchars : start.toList with
    | nil => exact hnil hchars
    | cons c more =>
      rw [hchars, hhead] at hprefix
      obtain ⟨rfl, -⟩ := List.cons.inj hprefix
      simp [hchars] at hne
  have hword : word? (unprintable.toList ++ rest) = none := by
    cases hread : word? (unprintable.toList ++ rest) with
    | none => rfl
    | some found =>
      obtain ⟨text, behind⟩ := found
      obtain ⟨hcs, hname, -⟩ := word?_eq_some_iff.mp hread
      obtain ⟨c, more, htext, hc⟩ := head_of_isWord hname
      rw [htext, hhead] at hcs
      obtain ⟨rfl, -⟩ := List.cons.inj hcs
      exact absurd hc (by decide)
  have hstartsWith : startsWith unprintable (unprintable.toList ++ rest) = true :=
    startsWith_iff.mpr (List.prefix_append _ _)
  simp only [leaf?, hliteral, hmark, hstarts, hword, hstartsWith]
  simp [← String.length_toList]

theorem leaf?_of_literal (h : (Lexeme.literal text).StandsBefore rest) :
    leaf? (text.toList ++ rest) = some (.literal text, rest) := by
  rcases h with h | rfl
  · have hread : literal? (text.toList ++ rest) = some (text, rest) := literal?_eq_some_iff.mpr ⟨rfl, h⟩
    simp [leaf?, hread]
  · exact leaf?_of_unprintable

theorem leaf?_of_mark (hmark : c ∈ marks) (hquote : c ≠ '\'') (hcomment : ¬BeginsComment (c :: rest)) :
    leaf? (c :: rest) = some (.mark c (startsWithMark rest), rest) := by
  have hliteral : literal? (c :: rest) = none := by
    have hletters : ∀ c ∈ marks, c ∉ ['"', 'r', 'b', 'c'] ∧ c.isDigit = false := List.all_iff_forall_prop.mp (by decide)
    obtain ⟨hc, hdigit⟩ := hletters c hmark
    rw [literal?_eq_none_iff]
    exact literalEnd_eq_none (by simp_all) hdigit
  have hstarts := startsWithMark_cons_iff.mpr ⟨hmark, hcomment⟩
  have hread : mark? (c :: rest) = some (.mark c (startsWithMark rest), rest) := by
    unfold mark?
    split
    · next h => exact absurd (List.cons.inj h).1 hquote
    · next h =>
      obtain ⟨rfl, rfl⟩ := List.cons.inj h
      rw [if_pos hstarts]
    · next h => simp at h
  simp [leaf?, hliteral, hread]

theorem leaf?_cases (h : leaf? cs = some (t, rest)) :
    (∃ text, t = .literal text ∧ literal? cs = some (text, rest)) ∨
    (literal? cs = none ∧ mark? cs = some (t, rest)) ∨
    (∃ text, t = .word text ∧ (∀ start ∈ literalStarts, ¬start.toList <+: cs) ∧ word? cs = some (text, rest)) ∨
    (t = .literal unprintable ∧ cs = unprintable.toList ++ rest) := by
  unfold leaf? at h
  split at h
  · next text behind hliteral =>
    obtain ⟨rfl, rfl⟩ := Prod.mk.inj (Option.some.inj h)
    exact Or.inl ⟨text, rfl, hliteral⟩
  · next hliteral =>
    split at h
    · next found hmark =>
      obtain rfl := Option.some.inj h
      exact Or.inr (Or.inl ⟨hliteral, hmark⟩)
    · split at h
      · simp at h
      · next hstarts =>
        split at h
        · next text behind hword =>
          obtain ⟨rfl, rfl⟩ := Prod.mk.inj (Option.some.inj h)
          rw [Bool.not_eq_true, literalStarts_any_eq_false_iff] at hstarts
          exact Or.inr (Or.inr (Or.inl ⟨text, rfl, hstarts, hword⟩))
        · split at h
          · next hprefix =>
            obtain ⟨rfl, rfl⟩ := Prod.mk.inj (Option.some.inj h)
            obtain ⟨behind, rfl⟩ := startsWith_iff.mp hprefix
            exact Or.inr (Or.inr (Or.inr ⟨rfl, by rw [← String.length_toList, List.drop_left]⟩))
          · simp at h

/-- What has been read when the reader of tokens has read a token. -/
def ReadsAs (cs : List Char) (rest : List Char) : Token → Prop
  | .word text => cs = text.toList ++ rest ∧ (Lexeme.word text).StandsBefore rest
  | .lifetime name => cs = '\'' :: (name.toList ++ rest) ∧ (Lexeme.lifetime name).StandsBefore rest
  | .literal text => cs = text.toList ++ rest ∧ (Lexeme.literal text).StandsBefore rest
  | .mark c joint => cs = c :: rest ∧ (c = '\'' ∧ joint = true ∨
      c ≠ '\'' ∧ c ∈ marks ∧ ¬BeginsComment cs ∧ joint = startsWithMark rest)
  | .group _ _ => False

theorem readsAs_of_lifetime? (h : lifetime? cs = some (t, rest)) : ReadsAs ('\'' :: cs) rest t := by
  have hkind : (∃ name, t = .lifetime name) ∨ t = .mark '\'' true ∧ rest = cs := by
    unfold lifetime? at h
    split at h
    · simp at h
    · split_ifs at h
      · exact Or.inr (by simpa [eq_comm] using h)
      · exact Or.inl ⟨_, (Prod.mk.inj (Option.some.inj h)).1.symm⟩
  rcases hkind with ⟨name, rfl⟩ | ⟨rfl, rfl⟩
  · obtain ⟨rfl, hstands⟩ := lifetime?_eq_some_lifetime_iff.mp h
    exact ⟨rfl, hstands⟩
  · exact ⟨rfl, Or.inl ⟨rfl, rfl⟩⟩

theorem readsAs_of_leaf? (h : leaf? cs = some (t, rest)) : ReadsAs cs rest t := by
  rcases leaf?_cases h with ⟨text, rfl, hliteral⟩ | ⟨-, hmark⟩ | ⟨text, rfl, hstarts, hword⟩ | ⟨rfl, rfl⟩
  · obtain ⟨rfl, hend⟩ := literal?_eq_some_iff.mp hliteral
    exact ⟨rfl, Or.inl hend⟩
  · unfold mark? at hmark
    split at hmark
    · exact readsAs_of_lifetime? hmark
    · next c behind hquote =>
      split_ifs at hmark with hstarts
      obtain ⟨rfl, rfl⟩ := Prod.mk.inj (Option.some.inj hmark)
      obtain ⟨hmem, hcomment⟩ := startsWithMark_cons_iff.mp hstarts
      exact ⟨rfl, Or.inr ⟨hquote, hmem, hcomment, rfl⟩⟩
    · simp at hmark
  · obtain ⟨rfl, hname, hends, hraw⟩ := word?_eq_some_iff.mp hword
    refine ⟨rfl, hname, hends, ?_⟩
    rintro (h | ⟨start, hstart, hprefix⟩)
    · exact hraw h
    · exact hstarts start hstart hprefix
  · exact ⟨rfl, Or.inr rfl⟩

/-- The characters that may stand at the front of a token. -/
def BeginsLeaf (c : Char) (cs : List Char) : Prop :=
  Unicode.isIdentifierStart c = true ∨ c.isDigit = true ∨ c = '"' ∨ c = '\'' ∨
    (c ∈ marks ∧ ¬BeginsComment (c :: cs)) ∨ unprintable.toList <+: c :: cs

theorem head_of_leaf? (h : leaf? cs = some (t, rest)) : ∃ c more, cs = c :: more ∧ BeginsLeaf c more := by
  have hread := readsAs_of_leaf? h
  cases t with
  | word text =>
    obtain ⟨rfl, hword, -⟩ := hread
    obtain ⟨c, more, htext, hc⟩ := head_of_isWord hword
    exact ⟨c, more ++ rest, by simp [htext], Or.inl hc⟩
  | lifetime name =>
    obtain ⟨rfl, -⟩ := hread
    exact ⟨'\'', _, rfl, Or.inr (Or.inr (Or.inr (Or.inl rfl)))⟩
  | literal text =>
    obtain ⟨rfl, hend | rfl⟩ := hread
    · obtain ⟨first, hne, hcs⟩ := isRest_of_literalEnd hend
      obtain ⟨c, more, htext⟩ := List.exists_cons_of_ne_nil hne
      rw [htext, List.cons_append] at hcs
      rw [hcs] at hend ⊢
      refine ⟨c, _, rfl, ?_⟩
      have hletters : ∀ c ∈ ['r', 'b', 'c'], Unicode.isIdentifierStart c = true :=
        List.all_iff_forall_prop.mp (by decide)
      rcases head_of_literalEnd hend with hc | hc
      · simp only [List.mem_cons, List.not_mem_nil, or_false] at hc
        rcases hc with rfl | rfl | hc
        · exact Or.inr (Or.inr (Or.inl rfl))
        · exact Or.inr (Or.inr (Or.inr (Or.inl rfl)))
        · exact Or.inl (hletters c (by simpa using hc))
      · exact Or.inr (Or.inl hc)
    · exact ⟨'(', _, rfl, Or.inr (Or.inr (Or.inr (Or.inr (Or.inr (List.prefix_append _ _)))))⟩
  | mark c joint =>
    obtain ⟨rfl, ⟨rfl, -⟩ | ⟨-, hmem, hcomment, -⟩⟩ := hread
    · exact ⟨'\'', rest, rfl, Or.inr (Or.inr (Or.inr (Or.inl rfl)))⟩
    · exact ⟨c, rest, rfl, Or.inr (Or.inr (Or.inr (Or.inr (Or.inl ⟨hmem, hcomment⟩))))⟩
  | group => exact absurd hread id

def gapCodes : List Nat :=
  [32, 9, 10, 11, 12, 13, 0x85, 0xa0, 0x1680, 0x2000, 0x2001, 0x2002, 0x2003, 0x2004, 0x2005, 0x2006, 0x2007, 0x2008,
    0x2009, 0x200a, 0x200e, 0x200f, 0x2028, 0x2029, 0x202f, 0x205f, 0x3000]

theorem mem_gapCodes (h : isGap c = true) : c.toNat ∈ gapCodes := by
  simp only [isGap, Unicode.isBlank, Bool.or_eq_true, Bool.and_eq_true, beq_iff_eq, decide_eq_true_eq] at h
  simp only [gapCodes, List.mem_cons, List.not_mem_nil, or_false]
  omega

theorem not_isIdentifierStart_of_isGap (h : isGap c = true) : Unicode.isIdentifierStart c = false := by
  have hall : ∀ n ∈ gapCodes, Unicode.isIdentifierStart (Char.ofNat n) = false := by decide +kernel
  have hc := hall c.toNat (mem_gapCodes h)
  rwa [Char.ofNat_toNat] at hc

theorem head_unprintable (h : unprintable.toList <+: c :: cs) : c = '(' := by
  obtain ⟨behind, heq⟩ := h
  exact (List.cons.inj heq).1.symm

theorem not_mem_marks_of_isGap (h : isGap c = true) : c ∉ marks := by
  have hmarks : ∀ c ∈ marks, isGap c = false := List.all_iff_forall_prop.mp (by decide)
  intro hmem
  simp [hmarks c hmem] at h

theorem not_isGap_of_beginsLeaf (h : BeginsLeaf c cs) : isGap c = false := by
  rw [← Bool.not_eq_true]
  intro hgap
  have hdigits : ∀ c ∈ "0123456789".toList, isGap c = false := List.all_iff_forall_prop.mp (by decide)
  rcases h with hc | hc | rfl | rfl | ⟨hc, -⟩ | hc
  · simp [not_isIdentifierStart_of_isGap hgap] at hc
  · simp [hdigits c (mem_digits hc)] at hgap
  · exact absurd hgap (by decide)
  · exact absurd hgap (by decide)
  · exact not_mem_marks_of_isGap hgap hc
  · rw [head_unprintable hc] at hgap
    exact absurd hgap (by decide)

theorem not_beginsComment_cons (hc : c ≠ '/') : ¬BeginsComment (c :: cs) := by
  rintro (⟨_, h⟩ | ⟨_, h⟩)
  · exact hc (List.cons.inj h).1.symm
  · exact hc (List.cons.inj h).1.symm

theorem not_beginsComment_of_beginsLeaf (h : BeginsLeaf c cs) : ¬BeginsComment (c :: cs) := by
  rcases h with hc | hc | rfl | rfl | ⟨-, hcomment⟩ | hc
  · apply not_beginsComment_cons
    rintro rfl
    exact absurd hc (by decide)
  · apply not_beginsComment_cons
    rintro rfl
    exact absurd hc (by decide)
  · exact not_beginsComment_cons (by decide)
  · exact not_beginsComment_cons (by decide)
  · exact hcomment
  · exact not_beginsComment_cons (by rw [head_unprintable hc]; decide)

theorem not_bracket_of_beginsLeaf (h : BeginsLeaf c cs) :
    startsWith unprintable (c :: cs) = true ∨ opened? c = none ∧ closed? c = none := by
  have hdigits : ∀ c ∈ "0123456789".toList, opened? c = none ∧ closed? c = none :=
    List.all_iff_forall_prop.mp (by decide)
  have hmarks : ∀ c ∈ marks, opened? c = none ∧ closed? c = none := List.all_iff_forall_prop.mp (by decide)
  have hbrackets : ∀ c ∈ "()[]\x7b\x7d".toList, Unicode.isIdentifierStart c = false :=
    List.all_iff_forall_prop.mp (by decide)
  rcases h with hc | hc | rfl | rfl | ⟨hc, -⟩ | hc
  · right
    constructor
    · unfold opened?
      split <;> simp_all
    · unfold closed?
      split <;> simp_all
  · exact Or.inr (hdigits c (mem_digits hc))
  · exact Or.inr (by decide)
  · exact Or.inr (by decide)
  · exact Or.inr (hmarks c hc)
  · exact Or.inl (startsWith_iff.mpr hc)

end CommandBinding.Lexer
