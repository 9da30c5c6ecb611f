import CommandBinding.Proofs.AscendingTexts
import CommandBinding.Proofs.BindingRules
import CommandBinding.Proofs.GroupWords

/-!
What the arguments for shadow groups are resolved to. An argument that is no literal is reported before any word is
looked at; then all words that are no names are reported at once; and else the words of every literal are a group, which
is resolved to itself when it is written with one space between its words.
-/
namespace CommandBinding

/-- Words are what stands between the blanks of a text and is not empty. -/
theorem wordsFrom_eq_filter (run cs : List Char) :
    wordsFrom run cs = (List.splitOnPPrepend Unicode.isBlank cs run).filter (!·.isEmpty) := by
  fun_induction wordsFrom run cs with
  | case1 run hempty => simp_all [List.splitOnPPrepend]
  | case2 run hne => simp_all [List.splitOnPPrepend]
  | case3 run c rest hc hempty ih => simp_all [List.splitOnPPrepend]
  | case4 run c rest hc hne ih => simp_all [List.splitOnPPrepend]
  | case5 run c rest hc ih => simp_all [List.splitOnPPrepend]

theorem words_eq_filter (text : String) :
    words text = ((text.toList.splitOnP Unicode.isBlank).filter (!·.isEmpty)).map String.ofList := by
  rw [words, wordsFrom_eq_filter]
  rfl

namespace ShadowGroup

variable {arguments : List GroupArgument} {texts names : List String}

theorem resolve_of_expression {text : String} (h : .expression text ∈ arguments) (names : List String) :
    resolve arguments names = .error (.onDirective .shadowGroupsNotLiteral) := by
  have hnone : literals? arguments = none := by
    cases hliterals : literals? arguments with
    | none => rfl
    | some texts =>
      rw [literals?_eq_some_iff.mp hliterals] at h
      simp at h
  rw [resolve, hnone]

theorem resolve_literals (texts names : List String) : resolve (texts.map .literal) names =
    if (unknownWords texts names).isEmpty then .ok (ofTexts texts)
    else .error (.onDirective (.unknownShadowedNames (unknownWords texts names))) := by
  rw [resolve, literals?_eq_some_iff.mpr rfl]

theorem resolve_eq_notLiteral_iff :
    resolve arguments names = .error (.onDirective .shadowGroupsNotLiteral) ↔ ∃ text, .expression text ∈ arguments := by
  constructor
  · intro h
    rcases literals_or_expression arguments with ⟨texts, rfl⟩ | hexpression
    · rw [resolve_literals] at h
      split at h <;> simp [Finding.onDirective] at h
    · exact hexpression
  · rintro ⟨text, h⟩
    exact resolve_of_expression h names

theorem resolve_of_unknown {text word : String} (htext : text ∈ texts) (hword : word ∈ words text)
    (hunknown : word ∉ names) : resolve (texts.map .literal) names =
      .error (.onDirective (.unknownShadowedNames (unknownWords texts names))) := by
  have hmem : word ∈ unknownWords texts names := mem_unknownWords.mpr ⟨⟨text, htext, hword⟩, hunknown⟩
  rw [resolve_literals, if_neg]
  rw [List.isEmpty_iff]
  exact List.ne_nil_of_mem hmem

theorem words_render_of_mem_ofTexts {group : ShadowGroup} (h : group ∈ ofTexts texts) : words (render group) = group := by
  obtain ⟨-, text, -, rfl⟩ := mem_ofTexts.mp h
  exact words_render fun _ hword => isRun_of_mem_words hword

/-- The groups of some texts are the groups of their strings. -/
theorem ofTexts_render (texts : List String) : ofTexts ((ofTexts texts).map render) = ofTexts texts := by
  have hread : ((ofTexts texts).map render).map words = ofTexts texts := by
    rw [List.map_map]
    exact (List.map_congr_left fun group hgroup => words_render_of_mem_ofTexts hgroup).trans (List.map_id _)
  rw [ofTexts, hread]
  exact List.filter_eq_self.mpr fun group hgroup => by simpa using (mem_ofTexts.mp hgroup).1

theorem resolve_of_known (h : ∀ text ∈ texts, ∀ word ∈ words text, word ∈ names) :
    resolve (texts.map .literal) names = .ok (ofTexts texts) ∧
      resolve ((ofTexts texts).map fun group => .literal (render group)) names = .ok (ofTexts texts) := by
  refine ⟨resolve_eq_ok_iff.mpr ⟨texts, rfl, h, rfl⟩,
    resolve_eq_ok_iff.mpr ⟨(ofTexts texts).map render, by rw [List.map_map]; rfl, ?_, ofTexts_render texts⟩⟩
  intro rendered hrendered word hword
  obtain ⟨group, hgroup, rfl⟩ := List.mem_map.mp hrendered
  rw [words_render_of_mem_ofTexts hgroup] at hword
  obtain ⟨-, text, htext, rfl⟩ := mem_ofTexts.mp hgroup
  exact h text htext word hword

/-- Arguments are reported if one of them is no literal; else if some word of them is no name, and then with all such
words in ascending order; and else every literal with a word in it gives the group of its words. -/
theorem resolve_reports_unknown_words_or_groups (arguments : List GroupArgument) (names : List String) :
    (resolve arguments names = .error (.onDirective .shadowGroupsNotLiteral) ↔ ∃ text, .expression text ∈ arguments) ∧
    (∀ texts : List String, arguments = texts.map .literal →
      ((∃ text ∈ texts, ∃ word ∈ words text, word ∉ names) →
        ∃ unknown, resolve arguments names = .error (.onDirective (.unknownShadowedNames unknown)) ∧
          unknown.Pairwise (· < ·) ∧
          ∀ word, word ∈ unknown ↔ (∃ text ∈ texts, word ∈ words text) ∧ word ∉ names) ∧
      ((∀ text ∈ texts, ∀ word ∈ words text, word ∈ names) →
        ∃ groups, resolve arguments names = .ok groups ∧ groups = (texts.map words).filter (!·.isEmpty) ∧
          resolve (groups.map fun group => .literal (render group)) names = .ok groups)) ∧
    ∀ text, words text = ((text.toList.splitOnP Unicode.isBlank).filter (!·.isEmpty)).map String.ofList := by
  refine ⟨resolve_eq_notLiteral_iff, ?_, words_eq_filter⟩
  rintro texts rfl
  constructor
  · rintro ⟨text, htext, word, hword, hunknown⟩
    exact ⟨unknownWords texts names, resolve_of_unknown htext hword hunknown, pairwise_ascending _,
      fun word => mem_unknownWords⟩
  · intro hknown
    obtain ⟨hgroups, hagain⟩ := resolve_of_known hknown
    exact ⟨ofTexts texts, hgroups, rfl, hagain⟩

/-- Two unknown words, one of them written twice, are one finding; and a blank literal gives no group. -/
theorem resolve_reports_two_unknown_words :
    (∃ unknown, resolve [.literal "zeta lower alpha", .literal "alpha upper"] ["lower", "upper"] =
      .error (.onDirective (.unknownShadowedNames unknown)) ∧ unknown.Pairwise (· < ·) ∧
      "alpha" ∈ unknown ∧ "zeta" ∈ unknown ∧ "lower" ∉ unknown) ∧
    resolve [.literal "lower  upper", .literal " "] ["lower", "upper"] = .ok [["lower", "upper"]] := by
  obtain ⟨-, hunknown, -⟩ := resolve_reports_unknown_words_or_groups
    [.literal "zeta lower alpha", .literal "alpha upper"] ["lower", "upper"]
  obtain ⟨-, hknown, -⟩ := resolve_reports_unknown_words_or_groups
    [.literal "lower  upper", .literal " "] ["lower", "upper"]
  obtain ⟨unknown, herror, hascending, hmem⟩ :=
    (hunknown ["zeta lower alpha", "alpha upper"] rfl).1 (by decide +kernel)
  obtain ⟨groups, hgroups, rfl, -⟩ := (hknown ["lower  upper", " "] rfl).2 (by decide +kernel)
  have hwords : (["lower  upper", " "].map words).filter (!·.isEmpty) = [["lower", "upper"]] := by decide +kernel
  refine ⟨⟨unknown, herror, hascending, ?_⟩, by rw [hgroups, hwords]⟩
  simp only [hmem]
  decide +kernel

end ShadowGroup

end CommandBinding
