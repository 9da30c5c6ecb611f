import CommandBinding.Proofs.Lexemes
import CommandBinding.Proofs.ReaderRests

/-!
Reading words. A word is read in front of every text that does not go on with it, but the few words that begin
literals are no words in front of a quote.
-/
namespace CommandBinding.Lexer

open Lexeme

variable {cs rest more first : List Char} {c : Char} {text : String}

def outsideWords : List Char :=
  marks ++ "\"#()[]\x7b\x7d\\ ".toList

theorem not_isIdentifierStart_of_mem (h : c ∈ outsideWords) : Unicode.isIdentifierStart c = false := by
  have hall : ∀ c ∈ outsideWords, Unicode.isIdentifierStart c = false := List.all_iff_forall_prop.mp (by decide)
  exact hall c h

theorem not_isIdentifierContinue_of_mem (h : c ∈ outsideWords) : Unicode.isIdentifierContinue c = false := by
  have hall : ∀ c ∈ outsideWords, Unicode.isIdentifierContinue c = false := List.all_iff_forall_prop.mp (by decide)
  exact hall c h

def IsIdentifier (cs : List Char) : Prop :=
  ∃ c more, cs = c :: more ∧ Unicode.isIdentifierStart c = true ∧ ∀ d ∈ more, Unicode.isIdentifierContinue d = true

theorem isIdentifier_iff : Source.isIdentifier text = true ↔ IsIdentifier text.toList := by
  unfold Source.isIdentifier
  split
  · next h => simp [IsIdentifier, h]
  · next c more h => simp [IsIdentifier, h]

/-- An identifier ends where a character stands that does not continue one. -/
theorem takeWhile_append (hmore : ∀ d ∈ more, Unicode.isIdentifierContinue d = true) (hrest : EndsWord rest) :
    (more ++ rest).takeWhile Unicode.isIdentifierContinue = more ∧
      (more ++ rest).dropWhile Unicode.isIdentifierContinue = rest := by
  induction more with
  | nil =>
    cases rest with
    | nil => simp
    | cons c rest =>
      have hc : Unicode.isIdentifierContinue c = false := hrest c rfl
      simp [hc]
  | cons d more ih =>
    have hd : Unicode.isIdentifierContinue d = true := hmore d (by simp)
    have hih := ih fun e he => hmore e (by simp [he])
    simp [hd, hih]

theorem endsWord_dropWhile (cs : List Char) : EndsWord (cs.dropWhile Unicode.isIdentifierContinue) := by
  intro c hc
  have := List.head?_dropWhile_not Unicode.isIdentifierContinue cs
  rw [Option.mem_def] at hc
  rw [hc] at this
  simpa using this

theorem name?_eq_some_iff :
    name? cs = some (first, rest) ↔ cs = first ++ rest ∧ IsIdentifier first ∧ EndsWord rest := by
  constructor
  · intro h
    unfold name? at h
    split at h
    · next c cs =>
      split at h
      · next hc =>
        obtain ⟨rfl, rfl⟩ := Prod.mk.inj (Option.some.inj h)
        refine ⟨by simp, ⟨c, _, rfl, hc, fun d hd => ?_⟩, endsWord_dropWhile cs⟩
        exact List.all_eq_true.mp List.all_takeWhile d hd
      · simp at h
    · simp at h
  · rintro ⟨rfl, ⟨c, more, rfl, hc, hmore⟩, hrest⟩
    obtain ⟨htake, hdrop⟩ := takeWhile_append hmore hrest
    simp [name?, hc, htake, hdrop]

/-- A raw word is the raw form of an identifier. -/
theorem rawWord_eq_some_iff : word? ('r' :: '#' :: cs) = some (text, rest) ↔
    ∃ name, text = "r#" ++ name ∧ cs = name.toList ++ rest ∧ Source.isIdentifier name = true ∧ name ∉ neverRaw ∧
      EndsWord rest := by
  simp only [word?, Option.bind_eq_some_iff, Prod.exists, name?_eq_some_iff]
  constructor
  · rintro ⟨first, behind, ⟨rfl, hname, hrest⟩, h⟩
    split_ifs at h with hraw
    obtain ⟨rfl, rfl⟩ := Prod.mk.inj (Option.some.inj h)
    refine ⟨String.ofList first, rfl, by simp, ?_, by simpa using hraw, hrest⟩
    rwa [isIdentifier_iff, String.toList_ofList]
  · rintro ⟨name, rfl, rfl, hname, hraw, hrest⟩
    refine ⟨name.toList, rest, ⟨rfl, isIdentifier_iff.mp hname, hrest⟩, ?_⟩
    simp [hraw]

/-- The reader of words reads a word in front of all that does not go on with it. -/
theorem word?_eq_some_iff : word? cs = some (text, rest) ↔
    cs = text.toList ++ rest ∧ IsWord text ∧ EndsWord rest ∧ ¬(text = "r" ∧ rest.head? = some '#') := by
  have hsharp : Unicode.isIdentifierContinue '#' = false := by decide
  by_cases hraw : ∃ behind, cs = 'r' :: '#' :: behind
  · obtain ⟨behind, rfl⟩ := hraw
    rw [rawWord_eq_some_iff]
    constructor
    · rintro ⟨name, rfl, rfl, hname, hnever, hrest⟩
      refine ⟨by simp, Or.inr ⟨name, rfl, hname, hnever⟩, hrest, ?_⟩
      rintro ⟨heq, -⟩
      have := congrArg (·.toList.length) heq
      simp at this
    · rintro ⟨hcs, hword, hrest, hr⟩
      rcases hword with hname | ⟨name, rfl, hname, hnever⟩
      · obtain ⟨c, more, htext, hc, hmore⟩ := isIdentifier_iff.mp hname
        rw [htext, List.cons_append] at hcs
        obtain ⟨rfl, hbehind⟩ := List.cons.inj hcs
        cases more with
        | nil =>
          have hhead : rest.head? = some '#' := by rw [show rest = '#' :: behind from hbehind.symm]; rfl
          exact absurd ⟨String.toList_inj.mp htext, hhead⟩ hr
        | cons d more =>
          obtain ⟨rfl, -⟩ := List.cons.inj hbehind
          simp [hsharp] at hmore
      · exact ⟨name, rfl, by simpa using hcs, hname, hnever, hrest⟩
  · have hword : word? cs = (name? cs).map fun found => (String.ofList found.1, found.2) := by
      unfold word?
      split
      · next behind => exact absurd ⟨behind, rfl⟩ hraw
      · rfl
    rw [hword, Option.map_eq_some_iff]
    constructor
    · rintro ⟨⟨first, behind⟩, hname, heq⟩
      obtain ⟨rfl, rfl⟩ := Prod.mk.inj heq
      obtain ⟨rfl, hfirst, hrest⟩ := name?_eq_some_iff.mp hname
      refine ⟨by simp, Or.inl ?_, hrest, ?_⟩
      · rwa [isIdentifier_iff, String.toList_ofList]
      · rintro ⟨htext, hhead⟩
        have hfirst : first = ['r'] := by simpa using congrArg String.toList htext
        obtain ⟨behind, rfl⟩ := List.head?_eq_some_iff.mp hhead
        exact hraw ⟨behind, by rw [hfirst]; rfl⟩
    · rintro ⟨rfl, hword, hrest, hr⟩
      rcases hword with hname | ⟨name, rfl, -, -⟩
      · refine ⟨(text.toList, rest), name?_eq_some_iff.mpr ⟨rfl, isIdentifier_iff.mp hname, hrest⟩, by simp⟩
      · exact absurd ⟨name.toList ++ rest, by simp⟩ hraw

theorem startsWith_iff {start : String} : startsWith start cs = true ↔ start.toList <+: cs := by
  rw [startsWith, List.isPrefixOf_iff_prefix]

/-- A raw literal begins with a quote or a number sign, behind which another one or a quote stands. -/
theorem starts_of_readFenced {contents : Quoted.Contents} {value : List Char}
    (h : Quoted.readFenced contents cs = some (value, rest)) :
    ['"'] <+: cs ∨ ['#', '"'] <+: cs ∨ ['#', '#'] <+: cs := by
  simp only [Quoted.readFenced] at h
  split at h
  · next behind hdrop =>
    rcases cs with _ | ⟨c, _ | ⟨d, cs⟩⟩
    · simp at hdrop
    · by_cases hc : c = '#'
      · simp [hc] at hdrop
      · simp_all
    · by_cases hc : c = '#'
      · by_cases hd : d = '#'
        · simp [hc, hd]
        · simp_all
      · simp_all
  · simp at h

theorem beginsLiteral_of_readFenced {contents : Quoted.Contents} {value letters : List Char}
    (hletters : letters = ['r'] ∨ letters = ['b', 'r'] ∨ letters = ['c', 'r'])
    (h : Quoted.readFenced contents cs = some (value, rest)) :
    ∃ start ∈ literalStarts, start.toList <+: letters ++ cs := by
  rcases starts_of_readFenced h with ⟨behind, rfl⟩ | ⟨behind, rfl⟩ | ⟨behind, rfl⟩
  · rcases hletters with rfl | rfl | rfl
    · exact ⟨"r\"", by decide, by simp⟩
    · exact ⟨"br\"", by decide, by simp⟩
    · exact ⟨"cr\"", by decide, by simp⟩
  · rcases hletters with rfl | rfl | rfl
    · exact ⟨"r#\"", by decide, by simp⟩
    · exact ⟨"br#", by decide, by simp⟩
    · exact ⟨"cr#", by decide, by simp⟩
  · rcases hletters with rfl | rfl | rfl
    · exact ⟨"r##", by decide, by simp⟩
    · exact ⟨"br#", by decide, by simp⟩
    · exact ⟨"cr#", by decide, by simp⟩

/-- A quoted literal begins with a quote or with one of the beginnings. -/
theorem beginsLiteral_of_quotedEnd (h : quotedEnd cs = some rest) :
    cs.head? = some '"' ∨ cs.head? = some '\'' ∨ ∃ start ∈ literalStarts, start.toList <+: cs := by
  unfold quotedEnd at h
  split at h
  · exact Or.inl rfl
  · exact Or.inr (Or.inr ⟨"b\"", by decide, by simp⟩)
  · exact Or.inr (Or.inr ⟨"c\"", by decide, by simp⟩)
  · obtain ⟨⟨_, _⟩, hread, -⟩ := Option.map_eq_some_iff.mp h
    exact Or.inr (Or.inr (beginsLiteral_of_readFenced (.inr (.inl rfl)) hread))
  · obtain ⟨⟨_, _⟩, hread, -⟩ := Option.map_eq_some_iff.mp h
    exact Or.inr (Or.inr (beginsLiteral_of_readFenced (.inr (.inr rfl)) hread))
  · obtain ⟨⟨_, _⟩, hread, -⟩ := Option.map_eq_some_iff.mp h
    exact Or.inr (Or.inr (beginsLiteral_of_readFenced (.inl rfl) hread))
  · exact Or.inr (Or.inr ⟨"b'", by decide, by simp⟩)
  · exact Or.inr (Or.inl rfl)
  · simp at h

theorem mem_digits (h : c.isDigit = true) : c ∈ "0123456789".toList := by
  have hall : ∀ n ∈ List.range' 48 10, Char.ofNat n ∈ "0123456789".toList := by decide
  have hnine : '9'.val.toNat = 57 := rfl
  have hzero : '0'.val.toNat = 48 := rfl
  have hval : c.toNat = c.val.toNat := rfl
  simp only [Char.isDigit, Bool.and_eq_true, decide_eq_true_eq, ge_iff_le, UInt32.le_iff_toNat_le] at h
  have hc := hall c.toNat (by rw [List.mem_range'_1]; omega)
  rwa [Char.ofNat_toNat] at hc

theorem not_isDigit_of_isIdentifierStart (h : Unicode.isIdentifierStart c = true) : c.isDigit = false := by
  have hdigits : ∀ c ∈ "0123456789".toList, Unicode.isIdentifierStart c = false :=
    List.all_iff_forall_prop.mp (by decide)
  rw [← Bool.not_eq_true]
  intro hdigit
  simp [hdigits c (mem_digits hdigit)] at h

theorem ten_le_of_hexDigit? {d : Nat} (hc : c.isDigit = false) (h : Unicode.hexDigit? c = some d) : 10 ≤ d := by
  rw [Unicode.hexDigit?, if_neg (by simp [hc])] at h
  split_ifs at h
  · have := Option.some.inj h
    omega
  · have := Option.some.inj h
    omega

/-- A number begins with a digit. -/
theorem number_eq_none (cs : List Char) (hc : c.isDigit = false) :
    Number.floatEnd (c :: cs) = none ∧ Number.integerEnd (c :: cs) = none := by
  constructor
  · simp [Number.floatEnd, Number.floatDigits, hc]
  · have hzero : c ≠ '0' := by
      rintro rfl
      simp at hc
    have hdigits : Number.integerDigits (c :: cs) = Number.digitsEnd 10 false (c :: cs) := by
      unfold Number.integerDigits
      split <;> simp_all
    have hnone : Number.digitsEnd 10 false (c :: cs) = none := by
      rw [Number.digitsEnd]
      split
      · rfl
      · split
        · rfl
        · next d hd =>
          have hle : ¬d < 10 := Nat.not_lt.mpr (ten_le_of_hexDigit? hc hd)
          simp [hle, hc]
    rw [Number.integerEnd, hdigits, hnone]
    rfl

/-- The first character of a word begins an identifier. -/
theorem head_of_isWord (h : IsWord text) : ∃ c more, text.toList = c :: more ∧ Unicode.isIdentifierStart c = true := by
  rcases h with h | ⟨name, rfl, -, -⟩
  · obtain ⟨c, more, htext, hc, -⟩ := isIdentifier_iff.mp h
    exact ⟨c, more, htext, hc⟩
  · exact ⟨'r', '#' :: name.toList, by simp, by decide⟩

/-- Where no literal begins, a word is not read as one. -/
theorem literalEnd_eq_none_of_isWord (hword : IsWord text) (h : ¬BeginsLiteral text rest) :
    literalEnd (text.toList ++ rest) = none := by
  obtain ⟨c, more, htext, hc⟩ := head_of_isWord hword
  have hquoted : quotedEnd (text.toList ++ rest) = none := by
    cases hend : quotedEnd (text.toList ++ rest) with
    | none => rfl
    | some behind =>
      rcases beginsLiteral_of_quotedEnd hend with hhead | hhead | hstart
      · have hfirst : c = '"' := by simpa [htext] using hhead
        exact absurd hc (by rw [hfirst]; decide)
      · have hfirst : c = '\'' := by simpa [htext] using hhead
        exact absurd hc (by rw [hfirst]; decide)
      · exact absurd (Or.inr hstart) h
  obtain ⟨hfloat, hinteger⟩ := number_eq_none (more ++ rest) (not_isDigit_of_isIdentifierStart hc)
  rw [literalEnd, hquoted, htext, List.cons_append, hfloat, hinteger]
  rfl

end CommandBinding.Lexer
