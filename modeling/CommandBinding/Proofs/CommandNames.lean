import CommandBinding.Proofs.LowerCase
import CommandBinding.WorkFunction
import Mathlib.Data.List.DropRight
import Mathlib.Data.List.SplitBy

/-!
A command name is the words of the function name in lower case, joined by dashes: the words stand between separators, an
uppercase character begins one, and the empty ones do not count. The words of a command name are its parts between the
dashes, and none of them changes in lower case, so that the command name of a command name is that name.
-/
namespace CommandBinding

namespace CommandName

variable {c : Char} {last : Option Char} {cs run rest word x : List Char} {words : List (List Char)}

/-- Stands between words and belongs to none. -/
def isSeparator (c : Char) : Bool :=
  c == '_' || c == '-'

/-- Stands in a word, but begins none. -/
def continuesWord (c : Char) : Bool :=
  !isSeparator c && !Unicode.isUppercase c

/-- The words of a name, cut at the separators and in front of the uppercase characters. -/
def nameWords (name : List Char) : List (List Char) :=
  ((name.splitOnP isSeparator).flatMap (List.splitBy fun _ c => !Unicode.isUppercase c)).filter (!·.isEmpty)

def lowered (word : List Char) : List Char :=
  word.flatMap fun c => if Unicode.isUppercase c then Unicode.lowercase c else [c]

def joined (words : List (List Char)) : List Char :=
  ['-'].intercalate words

def kebab (name : String) : String :=
  String.ofList (joined ((nameWords name.toList).map lowered))

@[simp]
theorem joined_nil : joined [] = [] := rfl

@[simp]
theorem joined_singleton : joined [word] = word :=
  List.intercalate_singleton

theorem joined_cons (h : words ≠ []) : joined (word :: words) = word ++ '-' :: joined words := by
  obtain ⟨next, others, rfl⟩ := List.exists_cons_of_ne_nil h
  simp [joined, List.intercalate_cons_cons]

theorem joined_append (x : List Char) : joined ((x ++ word) :: words) = x ++ joined (word :: words) := by
  rcases eq_or_ne words [] with rfl | h
  · simp
  · simp [joined_cons h]

@[simp]
theorem nameWords_nil : nameWords [] = [] := rfl

theorem nameWords_separator (h : isSeparator c = true) : nameWords (c :: cs) = nameWords cs := by
  simp [nameWords, List.splitOnP_cons_eq_if_modifyHead, h]

theorem isSeparator_eq_false_iff : isSeparator c = false ↔ c ≠ '_' ∧ c ≠ '-' := by
  simp [isSeparator]

theorem continuesWord_iff : continuesWord c = true ↔ isSeparator c = false ∧ Unicode.isUppercase c = false := by
  simp [continuesWord]

theorem splitOnP_append_of_not {p : Char → Bool} (h : ∀ d ∈ run, p d = false) :
    (run ++ rest).splitOnP p = (rest.splitOnP p).modifyHead (run ++ ·) := by
  induction run with
  | nil => cases hrest : rest.splitOnP p <;> simp [hrest]
  | cons d run ih =>
    simp only [List.forall_mem_cons] at h
    rw [List.cons_append, List.splitOnP_cons_eq_if_modifyHead, if_neg (by simp [h.1]), ih h.2,
      List.modifyHead_modifyHead]
    rfl

/-- In front of a word or of nothing, the first part between separators is empty, or begins with an uppercase character. -/
theorem exists_splitOnP (h : ∀ d ∈ rest.head?, continuesWord d = false) :
    ∃ part parts, rest.splitOnP isSeparator = part :: parts ∧ ∀ d ∈ part.head?, Unicode.isUppercase d = true := by
  cases rest with
  | nil => exact ⟨[], [], rfl, by simp⟩
  | cons d rest =>
    rw [List.splitOnP_cons_eq_if_modifyHead]
    by_cases hd : isSeparator d = true
    · exact ⟨[], _, if_pos hd, by simp⟩
    · obtain ⟨part, parts, hparts⟩ := List.exists_cons_of_ne_nil (List.splitOnP_ne_nil isSeparator rest)
      have hupper : Unicode.isUppercase d = true := by simpa [continuesWord, hd] using h
      refine ⟨d :: part, parts, ?_, by simpa using hupper⟩
      rw [if_neg hd, hparts, List.modifyHead_cons]

/-- Behind a word stands nothing, a separator or an uppercase character. -/
theorem nameWords_word (hc : isSeparator c = false) (hrun : ∀ d ∈ run, continuesWord d = true)
    (hrest : ∀ d ∈ rest.head?, continuesWord d = false) :
    nameWords (c :: run ++ rest) = (c :: run) :: nameWords rest := by
  have hword : ∀ d ∈ c :: run, isSeparator d = false :=
    List.forall_mem_cons.mpr ⟨hc, fun d hd => (continuesWord_iff.mp (hrun d hd)).1⟩
  have hlower : ∀ d ∈ run, (!Unicode.isUppercase d) = true := fun d hd => by simp [(continuesWord_iff.mp (hrun d hd)).2]
  have hchain : (c :: run).IsChain fun _ d => (!Unicode.isUppercase d) = true :=
    (List.pairwise_cons.mpr ⟨hlower, List.pairwise_of_forall_mem_list fun _ _ d hd => hlower d hd⟩).isChain
  obtain ⟨part, parts, hparts, hpart⟩ := exists_splitOnP hrest
  have hcut : ((c :: run) ++ part).splitBy (fun _ c => !Unicode.isUppercase c) =
      (c :: run) :: part.splitBy fun _ c => !Unicode.isUppercase c := by
    rw [List.splitBy_append fun _ _ d hd => by simp [hpart d hd],
      List.splitBy_of_isChain (List.cons_ne_nil _ _) hchain, List.singleton_append]
  rw [nameWords, nameWords, splitOnP_append_of_not hword, hparts, List.modifyHead_cons, List.flatMap_cons, hcut]
  simp

theorem nameWords_cons (h : isSeparator c = false) :
    nameWords (c :: cs) = (c :: cs.takeWhile continuesWord) :: nameWords (cs.dropWhile continuesWord) := by
  have hrun : ∀ d ∈ cs.takeWhile continuesWord, continuesWord d = true := fun d hd => List.mem_takeWhile_imp hd
  have hrest : ∀ d ∈ (cs.dropWhile continuesWord).head?, continuesWord d = false := fun d hd => by
    have hnot := List.head?_dropWhile_not continuesWord cs
    rw [Option.mem_def.mp hd] at hnot
    simpa using hnot
  rw [← nameWords_word h hrun hrest, List.cons_append, List.takeWhile_append_dropWhile]

/-- A word of a name: its first character is no separator, and every other one continues it. -/
def IsWord (word : List Char) : Prop :=
  ∃ c run, word = c :: run ∧ isSeparator c = false ∧ ∀ d ∈ run, continuesWord d = true

theorem isWord_singleton (hc : isSeparator c = false) : IsWord [c] :=
  ⟨c, [], rfl, hc, by simp⟩

theorem IsWord.ne_nil (h : IsWord word) : word ≠ [] := by
  obtain ⟨c, run, rfl, -, -⟩ := h
  exact List.cons_ne_nil c run

theorem IsWord.not_isSeparator (h : IsWord word) : ∀ d ∈ word, isSeparator d = false := by
  obtain ⟨c, run, rfl, hc, hrun⟩ := h
  exact List.forall_mem_cons.mpr ⟨hc, fun d hd => (continuesWord_iff.mp (hrun d hd)).1⟩

theorem IsWord.getLast?_append (h : IsWord word) (x : List Char) : (x ++ word).getLast? = word.getLast? :=
  List.getLast?_append_of_ne_nil x h.ne_nil

theorem IsWord.separatesAfter (h : IsWord word) : separatesAfter word.getLast? = true := by
  have hlast := isSeparator_eq_false_iff.mp (h.not_isSeparator _ (List.getLast_mem h.ne_nil))
  rw [List.getLast?_eq_some_getLast h.ne_nil]
  simpa [CommandBinding.separatesAfter] using hlast.2

theorem isWord_of_mem_nameWords (h : word ∈ nameWords cs) : IsWord word := by
  induction hlength : cs.length using Nat.strong_induction_on generalizing cs with
  | _ n ih =>
    subst hlength
    cases cs with
    | nil => simp at h
    | cons c cs =>
      by_cases hc : isSeparator c = true
      · rw [nameWords_separator hc] at h
        exact ih cs.length (by simp) h rfl
      · rw [Bool.not_eq_true] at hc
        rw [nameWords_cons hc, List.mem_cons] at h
        rcases h with rfl | h
        · exact ⟨c, _, rfl, hc, fun d hd => List.mem_takeWhile_imp hd⟩
        · exact ih _ (Nat.lt_succ_of_le (List.length_dropWhile_le _ _)) h rfl

theorem lowered_cons :
    lowered (c :: run) = (if Unicode.isUppercase c then Unicode.lowercase c else [c]) ++ lowered run :=
  List.flatMap_cons

theorem lowered_append : lowered (x ++ run) = lowered x ++ lowered run :=
  List.flatMap_append

theorem lowered_of_continues (h : ∀ d ∈ run, continuesWord d = true) : lowered run = run := by
  induction run with
  | nil => rfl
  | cons d run ih =>
    simp only [List.forall_mem_cons] at h
    rw [lowered_cons, ih h.2, if_neg (by simp [(continuesWord_iff.mp h.1).2]), List.singleton_append]

theorem lowered_cons_takeWhile :
    lowered (c :: cs.takeWhile continuesWord) = lowered [c] ++ cs.takeWhile continuesWord := by
  have hrun := lowered_of_continues fun _ hd => List.mem_takeWhile_imp (l := cs) hd
  rw [← List.singleton_append, lowered_append, hrun]

theorem continuesWord_of_isLower (h : Unicode.isLower c = true) : continuesWord c = true := by
  obtain ⟨hupper, hdash, hunderscore⟩ := Unicode.isLower_iff.mp h
  simp [continuesWord, isSeparator, hupper, hdash, hunderscore]

/-- A word begins with an uppercase character that has no lower case, or nothing of its lower case begins a word. -/
theorem IsWord.lowered_cases (h : IsWord word) :
    lowered word = word ∨ lowered word ≠ [] ∧ ∀ d ∈ lowered word, continuesWord d = true := by
  obtain ⟨c, run, rfl, hc, hrun⟩ := h
  rw [lowered_cons, lowered_of_continues hrun]
  by_cases hupper : Unicode.isUppercase c = true
  · rw [if_pos hupper]
    rcases Unicode.lowercase_cases hupper with hsame | ⟨hne, hlower⟩
    · left
      rw [hsame, List.singleton_append]
    · right
      refine ⟨List.append_ne_nil_of_left_ne_nil hne _, fun d hd => ?_⟩
      rcases List.mem_append.mp hd with hd | hd
      · exact continuesWord_of_isLower (List.all_eq_true.mp hlower d hd)
      · exact hrun d hd
  · left
    rw [if_neg hupper, List.singleton_append]

theorem IsWord.lowered (h : IsWord word) : IsWord (lowered word) := by
  rcases h.lowered_cases with hsame | ⟨hne, hcontinue⟩
  · rwa [hsame]
  · obtain ⟨c, run, hword⟩ := List.exists_cons_of_ne_nil hne
    rw [hword, List.forall_mem_cons] at hcontinue
    exact ⟨c, run, hword, (continuesWord_iff.mp hcontinue.1).1, hcontinue.2⟩

theorem IsWord.lowered_lowered (h : IsWord word) :
    CommandName.lowered (CommandName.lowered word) = CommandName.lowered word := by
  rcases h.lowered_cases with hsame | ⟨-, hcontinue⟩
  · rw [hsame, hsame]
  · exact lowered_of_continues hcontinue

theorem isWord_of_mem_kebab (h : word ∈ (nameWords cs).map lowered) : IsWord word := by
  obtain ⟨plain, hplain, rfl⟩ := List.mem_map.mp h
  exact (isWord_of_mem_nameWords hplain).lowered

theorem IsWord.exists_joined (h : IsWord word) :
    ∃ d ds, joined (word :: words) = d :: ds ∧ isSeparator d = false := by
  obtain ⟨c, run, rfl, hc, -⟩ := h
  rcases eq_or_ne words [] with rfl | hwords
  · exact ⟨c, run, joined_singleton, hc⟩
  · exact ⟨c, run ++ '-' :: joined words, joined_cons hwords, hc⟩

theorem joined_ne_nil (h : ∀ word ∈ words, IsWord word) (hne : words ≠ []) : joined words ≠ [] := by
  obtain ⟨word, others, rfl⟩ := List.exists_cons_of_ne_nil hne
  obtain ⟨d, ds, hjoined, -⟩ := (h word List.mem_cons_self).exists_joined
  rw [hjoined]
  exact List.cons_ne_nil d ds

abbrev trimDashes (cs : List Char) : List Char :=
  cs.rdropWhile (· == '-')

theorem trimDashes_append :
    trimDashes (x ++ rest) = if trimDashes rest = [] then trimDashes x else x ++ trimDashes rest := by
  simp only [trimDashes, List.rdropWhile, List.reverse_append, List.dropWhile_append, List.isEmpty_iff,
    List.reverse_eq_nil_iff]
  split
  · rfl
  · rw [List.reverse_append, List.reverse_reverse]

theorem trimDashes_dash :
    trimDashes ('-' :: rest) = if trimDashes rest = [] then [] else '-' :: trimDashes rest :=
  trimDashes_append (x := ['-'])

theorem trimDashes_of_separatesAfter (h : separatesAfter x.getLast? = true) : trimDashes x = x := by
  refine List.rdropWhile_eq_self_iff.mpr fun hne => ?_
  simpa [List.getLast?_eq_some_getLast hne, separatesAfter] using h

theorem kebabFrom_separator (hc : isSeparator c = true) :
    kebabFrom last (c :: cs) = if separatesAfter last then '-' :: kebabFrom (some '-') cs else kebabFrom last cs := by
  have hskip : (c == '_' || c == '-') = true := hc
  rw [kebabFrom, if_pos hskip]

theorem kebabFrom_word (hc : isSeparator c = false) :
    kebabFrom last (c :: cs) = (if Unicode.isUppercase c && separatesAfter last then ['-'] else []) ++ lowered [c] ++
      kebabFrom (lowered [c]).getLast? cs := by
  have hkeep : ¬(c == '_' || c == '-') = true := by simpa [isSeparator] using hc
  have hlower := (isWord_singleton hc).lowered.ne_nil
  rw [kebabFrom, if_neg hkeep]
  by_cases hupper : Unicode.isUppercase c = true
  · have hsame : lowered [c] = Unicode.lowercase c := by simp [lowered, hupper]
    rw [hsame] at hlower ⊢
    simp [hupper, List.getLast?_eq_some_getLast hlower]
  · simp [lowered, hupper]

/-- What is written of `cs` when no dash is due, is the words of `cs`. -/
def WritesWords (cs : List Char) : Prop :=
  ∀ last, separatesAfter last = false → trimDashes (kebabFrom last cs) = joined ((nameWords cs).map lowered)

/-- What is written of `cs` behind a text `x` that ends inside a word, is the rest of that word and the words behind. -/
def ContinuesWords (cs : List Char) : Prop :=
  ∀ x : List Char, separatesAfter x.getLast? = true → trimDashes (x ++ kebabFrom x.getLast? cs) =
    joined ((x ++ cs.takeWhile continuesWord) :: (nameWords (cs.dropWhile continuesWord)).map lowered)

theorem writesWords_separator (hc : isSeparator c = true) (h : WritesWords cs) : WritesWords (c :: cs) := by
  intro last hlast
  rw [kebabFrom_separator hc, hlast, if_neg Bool.false_ne_true, nameWords_separator hc]
  exact h last hlast

theorem continuesWords_separator (hc : isSeparator c = true) (h : WritesWords cs) : ContinuesWords (c :: cs) := by
  intro x hx
  have hends : ¬continuesWord c = true := by simp [continuesWord, hc]
  rw [kebabFrom_separator hc, hx, if_pos rfl, trimDashes_append, trimDashes_dash, h (some '-') rfl,
    trimDashes_of_separatesAfter hx, List.takeWhile_cons_of_neg hends, List.dropWhile_cons_of_neg hends,
    nameWords_separator hc, List.append_nil]
  -- A dash that no word follows is trimmed in the end.
  rcases eq_or_ne ((nameWords cs).map lowered) [] with hnone | hsome
  · simp [hnone]
  · have hjoined := joined_ne_nil (fun _ hword => isWord_of_mem_kebab hword) hsome
    rw [if_neg hjoined, if_neg (List.cons_ne_nil _ _), joined_cons hsome]

theorem writesWords_word (hc : isSeparator c = false) (h : ContinuesWords cs) : WritesWords (c :: cs) := by
  intro last hlast
  rw [kebabFrom_word hc, hlast, Bool.and_false, if_neg Bool.false_ne_true, List.nil_append, nameWords_cons hc,
    List.map_cons, lowered_cons_takeWhile]
  exact h _ (isWord_singleton hc).lowered.separatesAfter

theorem continuesWords_word (hc : isSeparator c = false) (h : ContinuesWords cs) : ContinuesWords (c :: cs) := by
  intro x hx
  have hlower := (isWord_singleton hc).lowered
  rw [kebabFrom_word hc, hx, Bool.and_true]
  by_cases hupper : Unicode.isUppercase c = true
  · -- The word at the end of `x` is over, and behind a dash the next one begins.
    have hends : ¬continuesWord c = true := by simp [continuesWord, hupper]
    have hword := h (x ++ ['-'] ++ lowered [c])
    rw [hlower.getLast?_append, List.append_assoc _ (lowered [c]), List.append_assoc _ (lowered [c]),
      joined_append] at hword
    rw [if_pos hupper, List.takeWhile_cons_of_neg hends, List.dropWhile_cons_of_neg hends, nameWords_cons hc,
      List.map_cons, lowered_cons_takeWhile, joined_cons (List.cons_ne_nil _ _), List.append_nil]
    simpa using hword hlower.separatesAfter
  · have hcontinue : continuesWord c = true := continuesWord_iff.mpr ⟨hc, by simpa using hupper⟩
    have hsame : lowered [c] = [c] := by simp [lowered, hupper]
    have hword := h (x ++ lowered [c])
    rw [hlower.getLast?_append] at hword
    rw [if_neg hupper, List.takeWhile_cons_of_pos hcontinue, List.dropWhile_cons_of_pos hcontinue]
    simpa [hsame] using hword hlower.separatesAfter

theorem writesWords_and_continuesWords (cs : List Char) : WritesWords cs ∧ ContinuesWords cs := by
  induction cs with
  | nil =>
    refine ⟨fun last _ => rfl, fun x hx => ?_⟩
    simpa [kebabFrom] using trimDashes_of_separatesAfter hx
  | cons c cs ih =>
    obtain ⟨hwrites, hcontinues⟩ := ih
    by_cases hc : isSeparator c = true
    · exact ⟨writesWords_separator hc hwrites, continuesWords_separator hc hwrites⟩
    · rw [Bool.not_eq_true] at hc
      exact ⟨writesWords_word hc hcontinues, continuesWords_word hc hcontinues⟩

theorem callName_eq_kebab (name : String) : callName name = kebab name :=
  congrArg String.ofList ((writesWords_and_continuesWords name.toList).1 none rfl)

theorem nameWords_joined (h : ∀ word ∈ words, IsWord word) : nameWords (joined words) = words := by
  induction words with
  | nil => rfl
  | cons word words ih =>
    rw [List.forall_mem_cons] at h
    obtain ⟨⟨c, run, rfl, hc, hrun⟩, hwords⟩ := h
    rcases eq_or_ne words [] with rfl | hsome
    · have hword : nameWords (c :: run ++ []) = (c :: run) :: nameWords [] := nameWords_word hc hrun (by simp)
      simpa using hword
    · have hdash : continuesWord '-' = false := by decide
      rw [joined_cons hsome, nameWords_word hc hrun (by simpa using hdash), nameWords_separator (by decide), ih hwords]

theorem kebab_kebab (name : String) : kebab (kebab name) = kebab name := by
  have hwords : ∀ word ∈ (nameWords name.toList).map lowered, IsWord word := fun _ => isWord_of_mem_kebab
  have hsame : ((nameWords name.toList).map lowered).map lowered = (nameWords name.toList).map lowered := by
    rw [List.map_map]
    exact List.map_congr_left fun word hword => (isWord_of_mem_nameWords hword).lowered_lowered
  rw [kebab, kebab, String.toList_ofList, nameWords_joined hwords, hsame]

theorem head?_joined (h : ∀ word ∈ words, IsWord word) : (joined words).head? ≠ some '-' := by
  cases words with
  | nil => simp
  | cons word words =>
    obtain ⟨d, ds, hjoined, hd⟩ := (h word List.mem_cons_self).exists_joined
    rw [hjoined, List.head?_cons, ne_eq, Option.some_inj]
    rintro rfl
    exact absurd hd (by decide)

/-- Between two dashes of a joined text stands a character of a word. -/
theorem isChain_joined (h : ∀ word ∈ words, IsWord word) : (joined words).IsChain fun c d => c ≠ '-' ∨ d ≠ '-' := by
  induction words with
  | nil => exact List.isChain_nil
  | cons word words ih =>
    rw [List.forall_mem_cons] at h
    obtain ⟨hword, hwords⟩ := h
    have hletter : ∀ d ∈ word, d ≠ '-' := fun d hd => (isSeparator_eq_false_iff.mp (hword.not_isSeparator d hd)).2
    have hinside : word.IsChain fun c d => c ≠ '-' ∨ d ≠ '-' :=
      (List.pairwise_of_forall_mem_list fun c hc _ _ => .inl (hletter c hc)).isChain
    rcases eq_or_ne words [] with rfl | hsome
    · rwa [joined_singleton]
    · rw [joined_cons hsome, List.isChain_append, List.isChain_cons]
      refine ⟨hinside, ⟨fun d hd => .inr ?_, ih hwords⟩, fun c hc _ _ => .inl (hletter c (List.mem_of_getLast? hc))⟩
      rintro rfl
      exact head?_joined hwords hd

theorem not_mem_joined (h : ∀ word ∈ words, IsWord word) : '_' ∉ joined words := by
  induction words with
  | nil => simp
  | cons word words ih =>
    rw [List.forall_mem_cons] at h
    obtain ⟨hword, hwords⟩ := h
    have hletter : '_' ∉ word := fun hd => (isSeparator_eq_false_iff.mp (hword.not_isSeparator _ hd)).1 rfl
    rcases eq_or_ne words [] with rfl | hsome
    · rwa [joined_singleton]
    · simp [joined_cons hsome, hletter, ih hwords]

theorem getLast?_callName (name : String) : (callName name).toList.getLast? ≠ some '-' := by
  have htrimmed : (callName name).toList = trimDashes (kebabFrom none name.toList) := String.toList_ofList
  rw [htrimmed]
  intro hlast
  have hne : trimDashes (kebabFrom none name.toList) ≠ [] := by
    intro hnil
    simp [hnil] at hlast
  rw [List.getLast?_eq_some_getLast hne, Option.some_inj] at hlast
  exact List.rdropWhile_last_not _ _ hne (by simp [hlast])

end CommandName

open CommandName

/-- The command name of a function is the kebab form of its name, and its own kebab form. -/
theorem WorkFunction.commandName_eq_kebab (f : WorkFunction) :
    f.commandName = kebab f.name ∧
      f.commandName.toList.head? ≠ some '-' ∧ f.commandName.toList.getLast? ≠ some '-' ∧
      '_' ∉ f.commandName.toList ∧ ¬['-', '-'] <:+: f.commandName.toList ∧
      ∀ g : WorkFunction, g.name = f.commandName → g.commandName = f.commandName := by
  have hkebab : f.commandName = kebab f.name := callName_eq_kebab f.name
  have hwords : ∀ word ∈ (nameWords f.name.toList).map lowered, IsWord word := fun _ => isWord_of_mem_kebab
  have hchars : f.commandName.toList = joined ((nameWords f.name.toList).map lowered) := by
    rw [hkebab, kebab, String.toList_ofList]
  refine ⟨hkebab, ?_, getLast?_callName f.name, ?_, fun hdashes => ?_, fun g hg => ?_⟩
  · rw [hchars]
    exact head?_joined hwords
  · rw [hchars]
    exact not_mem_joined hwords
  · rw [hchars] at hdashes
    obtain ⟨front, back, hsplit⟩ := hdashes
    have hpair := isChain_joined hwords
    rw [← hsplit, List.append_assoc, List.isChain_append, List.isChain_append] at hpair
    simp at hpair
  · calc g.commandName = kebab g.name := callName_eq_kebab g.name
      _ = kebab (kebab f.name) := by rw [hg, hkebab]
      _ = f.commandName := by rw [kebab_kebab, hkebab]

example : kebab "_loadHTTPPage--of_3" = "load-h-t-t-p-page-of-3" := by
  decide +kernel

end CommandBinding
