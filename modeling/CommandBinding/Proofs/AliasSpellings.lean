import CommandBinding.Aliases
import CommandBinding.Proofs.SharedAliases
import Mathlib.Data.List.Nodup

/-!
How aliases are typed. An alias of a valid label has no dash in it, so what is typed gives the alias back. Where no two
rows of a table share an alias, everything that can be typed is typed for one alias of one row.
-/
namespace CommandBinding

namespace Aliases

variable {a : Aliases} {label separator text other spelling : String}

theorem mem_present : text ∈ a.present ↔ a.short = some text ∨ a.legacy = some text ∨ a.long = some text := by
  simp [present, eq_comm]

/-- A text is typed behind one dash or behind two. -/
def IsSpelling (text spelling : String) : Prop :=
  spelling = "-" ++ text ∨ spelling = "--" ++ text

theorem exists_of_mem_spellings (h : spelling ∈ a.spellings) : ∃ text ∈ a.present, IsSpelling text spelling := by
  simp only [spellings, List.mem_filterMap, List.mem_cons, List.not_mem_nil, or_false, id_eq] at h
  obtain ⟨_, rfl | rfl | rfl, h⟩ := h
  · obtain ⟨text, htext, rfl⟩ := Option.map_eq_some_iff.mp h
    exact ⟨text, mem_present.mpr (.inl htext), .inl rfl⟩
  · obtain ⟨text, htext, rfl⟩ := Option.map_eq_some_iff.mp h
    exact ⟨text, mem_present.mpr (.inr (.inl htext)), .inl rfl⟩
  · obtain ⟨text, htext, rfl⟩ := Option.map_eq_some_iff.mp h
    exact ⟨text, mem_present.mpr (.inr (.inr htext)), .inr rfl⟩

theorem one_dash_ne_two (h : '-' ∉ text.toList) : "-" ++ text ≠ "--" ++ other := by
  intro heq
  have hcs : '-' :: text.toList = '-' :: '-' :: other.toList := by
    simpa using congrArg String.toList heq
  rw [(List.cons.inj hcs).2] at h
  exact h (List.mem_cons_self ..)

/-- What is typed for a text without a dash gives the text back. -/
theorem eq_of_isSpelling (htext : '-' ∉ text.toList) (hother : '-' ∉ other.toList) (h : IsSpelling text spelling)
    (h' : IsSpelling other spelling) : text = other := by
  rcases h with rfl | rfl <;> rcases h' with h' | h'
  · exact (String.append_right_inj _).mp h'
  · exact absurd h' (one_dash_ne_two htext)
  · exact absurd h'.symm (one_dash_ne_two hother)
  · exact (String.append_right_inj _).mp h'

/-- No text is typed twice in a row that has no legacy alias beside a short one. -/
theorem nodup_spellings (hone : a.short = none ∨ a.legacy = none) (hdash : ∀ text ∈ a.present, '-' ∉ text.toList) :
    a.spellings.Nodup := by
  obtain ⟨short, legacy, long⟩ := a
  have hlong {text other : String} (hmem : text ∈ present ⟨short, legacy, long⟩) :
      ¬"-" ++ text = "--" ++ other := one_dash_ne_two (hdash text hmem)
  cases short with
  | some short =>
    obtain rfl : legacy = none := by simpa using hone
    cases long with
    | none => simp [spellings]
    | some long => simpa [spellings] using hlong (mem_present.mpr (.inl rfl))
  | none =>
    cases legacy with
    | none => cases long <;> simp [spellings]
    | some legacy =>
      cases long with
      | none => simp [spellings]
      | some long => simpa [spellings] using hlong (mem_present.mpr (.inr (.inl rfl)))

/-- The head of a label gives one alias at most, and this is the head itself. -/
theorem ofHead_cases (head : List Char) : ofHead head = {} ∨ ofHead head = { short := some (String.ofList head) } ∨
    ofHead head = { legacy := some (String.ofList head) } := by
  match head with
  | [] => exact .inl rfl
  | [c] => exact .inr (.inl rfl)
  | c :: d :: rest => exact .inr (.inr rfl)

theorem ofLabel_short_or_legacy (label separator : String) :
    (ofLabel label separator).short = none ∨ (ofLabel label separator).legacy = none := by
  have hhead (head : List Char) : (ofHead head).short = none ∨ (ofHead head).legacy = none := by
    rcases ofHead_cases head with h | h | h <;> simp [h]
  unfold ofLabel
  split
  · exact .inl rfl
  · split
    · exact hhead _
    · exact hhead _

theorem mem_present_ofHead {head : List Char} {long : Option String}
    (h : text ∈ ({ ofHead head with long } : Aliases).present) : text = String.ofList head ∨ long = some text := by
  rcases ofHead_cases head with hhead | hhead | hhead <;>
    simp only [hhead, mem_present, reduceCtorEq, false_or, Option.some.injEq] at h
  · exact .inr h
  · exact h.imp_left Eq.symm
  · exact h.imp_left Eq.symm

/-- An alias has only characters of the label. -/
theorem mem_label_of_mem_present {c : Char} (h : text ∈ (ofLabel label separator).present) (hc : c ∈ text.toList) :
    c ∈ label.toList := by
  unfold ofLabel at h
  split at h
  · simp [present] at h
  · split at h
    · next head tail hcut =>
      have hlabel := eq_append_of_cutAtFirst hcut
      rcases mem_present_ofHead h with rfl | htail
      · rw [String.toList_ofList] at hc
        simp [hlabel, hc]
      · unfold nonEmpty at htail
        split at htail
        · simp at htail
        · obtain rfl := Option.some.inj htail
          rw [String.toList_ofList] at hc
          simp [hlabel, hc]
    · rcases mem_present_ofHead h with rfl | hlegacy
      · rwa [String.toList_ofList] at hc
      · rcases ofHead_cases label.toList with hhead | hhead | hhead <;>
          simp only [hhead, reduceCtorEq, Option.some.injEq] at hlegacy
        rwa [← hlegacy, String.toList_ofList] at hc

end Aliases

namespace AliasTable

variable {separator text : String} {p : BoundParameter} {table : AliasTable}

theorem no_dash_of_mem_present (h : HasPlainLabel p) (htext : text ∈ (row separator p).aliases.present) :
    '-' ∉ text.toList := by
  intro hdash
  rcases h '-' (Aliases.mem_label_of_mem_present htext hdash) with hc | hc
  · exact absurd hc (by decide)
  · exact absurd hc (by decide)

/-- What is typed for the aliases of a table is typed for one of them only, if no two rows share an alias. -/
theorem nodup_spellings_of_rows {ps : List BoundParameter} (hlabels : ∀ p ∈ ps, HasPlainLabel p)
    (hrows : (ps.map (row separator)).Pairwise fun r s => ∀ text ∈ r.aliases.present, text ∉ s.aliases.present) :
    ((ps.map (row separator)).flatMap (·.aliases.spellings)).Nodup := by
  have hdash : ∀ r ∈ ps.map (row separator), ∀ text ∈ r.aliases.present, '-' ∉ text.toList := by
    intro r hr text htext
    obtain ⟨p, hp, rfl⟩ := List.mem_map.mp hr
    exact no_dash_of_mem_present (hlabels p hp) htext
  refine List.nodup_flatMap.mpr ⟨fun r hr => ?_, hrows.imp_of_mem ?_⟩
  · refine Aliases.nodup_spellings ?_ (hdash r hr)
    obtain ⟨p, -, rfl⟩ := List.mem_map.mp hr
    exact Aliases.ofLabel_short_or_legacy p.label separator
  · intro r s hr hs hdisjoint spelling hspelling hspelling'
    obtain ⟨text, htext, hspelled⟩ := Aliases.exists_of_mem_spellings hspelling
    obtain ⟨other, hother, hspelled'⟩ := Aliases.exists_of_mem_spellings hspelling'
    obtain rfl := Aliases.eq_of_isSpelling (hdash r hr text htext) (hdash s hs other hother) hspelled hspelled'
    exact hdisjoint text htext hother

end AliasTable

end CommandBinding
