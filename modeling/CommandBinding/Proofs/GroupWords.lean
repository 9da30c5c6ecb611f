import CommandBinding.ShadowGroup
import Mathlib.Tactic.Common

/-!
The words of a text. A word is not empty and has no blank in it, and words with one space between them are read back.
So the string of a resolved shadow group has exactly the names that were written, and each of them is declared.
-/
namespace CommandBinding

variable {run x rest : List Char} {xs : List (List Char)}

structure IsRun (x : List Char) : Prop where
  ne_nil : x ≠ []
  no_blank : ∀ c ∈ x, Unicode.isBlank c = false

theorem isRun_reverse (hne : run.isEmpty ≠ true) (hrun : ∀ c ∈ run, Unicode.isBlank c = false) :
    IsRun run.reverse := by
  refine ⟨?_, ?_⟩
  · simpa using hne
  · simpa using hrun

theorem isRun_of_mem_wordsFrom {cs : List Char} (hrun : ∀ c ∈ run, Unicode.isBlank c = false)
    (hx : x ∈ wordsFrom run cs) : IsRun x := by
  fun_induction wordsFrom run cs with
  | case1 run hempty => simp at hx
  | case2 run hne =>
    obtain rfl := List.mem_singleton.mp hx
    exact isRun_reverse hne hrun
  | case3 run c rest hc hempty ih => exact ih (by simp) hx
  | case4 run c rest hc hne ih =>
    rcases List.mem_cons.mp hx with rfl | hx
    · exact isRun_reverse hne hrun
    · exact ih (by simp) hx
  | case5 run c rest hc ih =>
    refine ih (fun d hd => ?_) hx
    rcases List.mem_cons.mp hd with rfl | hd
    · simpa using hc
    · exact hrun d hd

theorem isRun_of_mem_words {text word : String} (h : word ∈ words text) : IsRun word.toList := by
  obtain ⟨x, hx, rfl⟩ := List.mem_map.mp h
  rw [String.toList_ofList]
  exact isRun_of_mem_wordsFrom (by simp) hx

theorem wordsFrom_append (hx : ∀ c ∈ x, Unicode.isBlank c = false) (run rest : List Char) :
    wordsFrom run (x ++ rest) = wordsFrom (x.reverse ++ run) rest := by
  induction x generalizing run with
  | nil => rfl
  | cons c x ih =>
    have hc : Unicode.isBlank c = false := hx c (List.mem_cons_self ..)
    rw [List.cons_append, wordsFrom, if_neg (by simp [hc]), ih (fun d hd => hx d (List.mem_cons_of_mem _ hd)),
      List.reverse_cons, List.append_assoc, List.singleton_append]

theorem wordsFrom_of_isRun (h : IsRun x) : wordsFrom [] x = [x] := by
  have happend := wordsFrom_append h.no_blank [] []
  rw [List.append_nil, List.append_nil] at happend
  rw [happend, wordsFrom, if_neg (by simpa using h.ne_nil), List.reverse_reverse]

theorem wordsFrom_append_space (h : IsRun x) (rest : List Char) :
    wordsFrom [] (x ++ ' ' :: rest) = x :: wordsFrom [] rest := by
  have hspace : Unicode.isBlank ' ' = true := by decide
  rw [wordsFrom_append h.no_blank, List.append_nil, wordsFrom, if_pos hspace, if_neg (by simpa using h.ne_nil),
    List.reverse_reverse]

theorem wordsFrom_intercalate (h : ∀ x ∈ xs, IsRun x) : wordsFrom [] ([' '].intercalate xs) = xs := by
  induction xs with
  | nil => rfl
  | cons x xs ih =>
    have hx := h x (List.mem_cons_self ..)
    have hxs := ih fun y hy => h y (List.mem_cons_of_mem _ hy)
    cases xs with
    | nil => rw [List.intercalate_singleton, wordsFrom_of_isRun hx]
    | cons y ys =>
      rw [List.intercalate_cons_cons, List.append_assoc, List.singleton_append, wordsFrom_append_space hx, hxs]

namespace ShadowGroup

variable {arguments : List GroupArgument} {names texts : List String} {groups : List ShadowGroup}
  {group : ShadowGroup}

/-- The names of a group are read back from its string. -/
theorem words_render (h : ∀ name ∈ group, IsRun name.toList) : words (render group) = group := by
  have htext : (render group).toList = [' '].intercalate (group.map String.toList) := by
    simp [render]
  have hruns : ∀ x ∈ group.map String.toList, IsRun x := by
    intro x hx
    obtain ⟨name, hname, rfl⟩ := List.mem_map.mp hx
    exact h name hname
  rw [words, htext, wordsFrom_intercalate hruns, List.map_map]
  simp

theorem mem_ofTexts : group ∈ ofTexts texts ↔ group ≠ [] ∧ ∃ text ∈ texts, words text = group := by
  simp [ofTexts, and_comm]

/-- Arguments are resolved exactly if all of them are literals and every word of them is a name. -/
theorem resolve_eq_ok_iff : resolve arguments names = .ok groups ↔
    ∃ texts, arguments = texts.map .literal ∧ (∀ text ∈ texts, ∀ word ∈ words text, word ∈ names) ∧
      ofTexts texts = groups := by
  have hknown (texts : List String) : (unknownWords texts names).isEmpty = true ↔
      ∀ text ∈ texts, ∀ word ∈ words text, word ∈ names := by
    rw [List.isEmpty_iff, List.eq_nil_iff_forall_not_mem]
    simp only [mem_unknownWords, not_and, Classical.not_not]
    exact ⟨fun h text htext word hword => h word ⟨text, htext, hword⟩,
      fun h word ⟨text, htext, hword⟩ => h text htext word hword⟩
  rw [resolve]
  cases hliterals : literals? arguments with
  | none =>
    simp only [reduceCtorEq, false_iff]
    rintro ⟨texts, harguments, -⟩
    simp [literals?_eq_some_iff.mpr harguments] at hliterals
  | some texts =>
    have harguments := literals?_eq_some_iff.mp hliterals
    have hsame {others : List String} (h : arguments = others.map .literal) : texts = others :=
      Option.some.inj (hliterals.symm.trans (literals?_eq_some_iff.mpr h))
    dsimp only
    split
    · next hempty =>
      rw [Except.ok.injEq]
      constructor
      · exact fun h => ⟨texts, harguments, (hknown texts).mp hempty, h⟩
      · rintro ⟨others, hothers, -, h⟩
        rw [hsame hothers, h]
    · next hunknown =>
      simp only [reduceCtorEq, false_iff]
      rintro ⟨others, hothers, hwords, -⟩
      exact hunknown ((hknown texts).mpr (hsame hothers ▸ hwords))

/-- The string of a resolved group is not blank, and its words are names. -/
theorem words_of_resolve (h : resolve arguments names = .ok groups) (hgroup : group ∈ groups) :
    words (render group) ≠ [] ∧ ∀ word ∈ words (render group), word ∈ names := by
  obtain ⟨texts, -, hknown, rfl⟩ := resolve_eq_ok_iff.mp h
  obtain ⟨hne, text, htext, rfl⟩ := mem_ofTexts.mp hgroup
  have hread : words (render (words text)) = words text := words_render fun _ hword => isRun_of_mem_words hword
  rw [hread]
  exact ⟨hne, hknown text htext⟩

/-- A text with a word in it is not blank. -/
theorem exists_not_blank_of_words {text : String} (h : words text ≠ []) :
    ∃ c ∈ text.toList, Unicode.isBlank c = false := by
  by_contra hblank
  have hnil (cs : List Char) (hcs : ∀ c ∈ cs, Unicode.isBlank c = true) : wordsFrom [] cs = [] := by
    induction cs with
    | nil => rfl
    | cons c cs ih =>
      rw [wordsFrom, if_pos (hcs c (List.mem_cons_self ..))]
      exact ih fun d hd => hcs d (List.mem_cons_of_mem _ hd)
  refine h ?_
  rw [words, hnil _ (by simpa using hblank), List.map_nil]

end ShadowGroup

end CommandBinding
