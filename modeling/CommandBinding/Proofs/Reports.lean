import CommandBinding.Finding
import Mathlib.Tactic.Common

/-!
Lists of findings that report rules. `Reports broken found` says that `found` holds one finding for each broken rule
and no other. Such lists are put together: where two of them report different rules, so does what stands in a row.
-/
namespace CommandBinding

variable {ρ : Type} {broken more : ρ → Finding → Prop} {found others : List Finding}

/-- One finding in `found` for each rule that is broken; `broken` gives the finding with the rule. -/
def Reports (broken : ρ → Finding → Prop) (found : List Finding) : Prop :=
  ∃ reports : List (ρ × Finding), (reports.map (·.1)).Nodup ∧ (∀ r g, (r, g) ∈ reports ↔ broken r g) ∧
    reports.map (·.2) = found

namespace Reports

theorem congr (h : Reports broken found) (hiff : ∀ r g, more r g ↔ broken r g) : Reports more found := by
  obtain ⟨reports, hnodup, hmem, hfound⟩ := h
  exact ⟨reports, hnodup, fun r g => (hmem r g).trans (hiff r g).symm, hfound⟩

theorem none (h : ∀ r g, ¬broken r g) : Reports broken [] :=
  ⟨[], List.nodup_nil, fun r g => by simp [h r g], rfl⟩

theorem single (rule : ρ) (finding : Finding) : Reports (fun r g => r = rule ∧ g = finding) [finding] :=
  ⟨[(rule, finding)], by simp, by simp, rfl⟩

/-- A rule that may be broken on its own. -/
theorem ite (c : Prop) [Decidable c] (rule : ρ) (finding : Finding) :
    Reports (fun r g => c ∧ r = rule ∧ g = finding) (if c then [finding] else []) := by
  split
  · next hc => exact (single rule finding).congr (by simp [hc])
  · next hc => exact none (by simp [hc])

theorem append (h : Reports broken found) (h' : Reports more others)
    (hdisjoint : ∀ r g g', broken r g → ¬more r g') :
    Reports (fun r g => broken r g ∨ more r g) (found ++ others) := by
  obtain ⟨reports, hnodup, hmem, rfl⟩ := h
  obtain ⟨reports', hnodup', hmem', rfl⟩ := h'
  refine ⟨reports ++ reports', ?_, ?_, by simp⟩
  · rw [List.map_append, List.nodup_append]
    refine ⟨hnodup, hnodup', ?_⟩
    rintro r hr _ hr' rfl
    obtain ⟨⟨_, g⟩, hg, rfl⟩ := List.mem_map.mp hr
    obtain ⟨⟨_, g'⟩, hg', hrule⟩ := List.mem_map.mp hr'
    obtain rfl : _ = _ := hrule
    exact hdisjoint _ g g' ((hmem _ _).mp hg) ((hmem' _ _).mp hg')
  · intro r g
    simp [hmem, hmem']

/-- The findings about the members of a list report the rules for their places, if no rule is for two places. -/
theorem places {α : Type} {rules : Nat → α → ρ → Finding → Prop} {findings : α → List Finding}
    (h : ∀ place a, Reports (rules place a) (findings a))
    (hdistinct : ∀ place a r g place' a' g', rules place a r g → rules place' a' r g' → place = place')
    (members : List α) :
    Reports (fun r g => ∃ (place : Nat) (a : α), members[place]? = some a ∧ rules place a r g)
      (members.flatMap findings) := by
  induction members generalizing rules with
  | nil => exact none (by simp)
  | cons a members ih =>
    have hrest := ih (fun place => h (place + 1)) fun place b r g place' b' g' hb hb' => by
      have := hdistinct _ b r g _ b' g' hb hb'
      omega
    rw [List.flatMap_cons]
    refine ((h 0 a).append hrest ?_).congr ?_
    · rintro r g g' hr ⟨place, b, -, hr'⟩
      have := hdistinct _ a r g _ b g' hr hr'
      omega
    · intro r g
      constructor
      · rintro ⟨_ | place, b, hb, hr⟩
        · obtain rfl : a = b := by simpa using hb
          exact Or.inl hr
        · exact Or.inr ⟨place, b, by simpa using hb, hr⟩
      · rintro (hr | ⟨place, b, hb, hr⟩)
        · exact ⟨0, a, rfl, hr⟩
        · exact ⟨place + 1, b, by simpa using hb, hr⟩

/-- One rule for each member of a list that has a finding. -/
theorem filterMap {α : Type} {rule : α → ρ} {finding? : α → Option Finding} {members : List α}
    (hnodup : members.Nodup) (hrule : ∀ a b, rule a = rule b → a = b) :
    Reports (fun r g => ∃ a ∈ members, r = rule a ∧ finding? a = some g) (members.filterMap finding?) := by
  induction members with
  | nil => exact none (by simp)
  | cons a members ih =>
    obtain ⟨hmem, hnodup⟩ := List.nodup_cons.mp hnodup
    have hhead : Reports (fun r g => r = rule a ∧ finding? a = some g) (finding? a).toList := by
      cases h : finding? a with
      | none => exact none (by simp)
      | some g => exact (single (rule a) g).congr (by simp [eq_comm])
    have hcons : (a :: members).filterMap finding? = (finding? a).toList ++ members.filterMap finding? := by
      cases h : finding? a <;> simp [h]
    rw [hcons]
    refine (hhead.append (ih hnodup) ?_).congr (by simp)
    rintro r g g' ⟨rfl, -⟩ ⟨b, hb, heq, -⟩
    exact hmem (hrule a b heq ▸ hb)

theorem mem_iff (h : Reports broken found) {finding : Finding} : finding ∈ found ↔ ∃ rule, broken rule finding := by
  obtain ⟨reports, -, hmem, rfl⟩ := h
  simp [← hmem]

/-- Nothing is found exactly if no rule is broken. -/
theorem eq_nil_iff (h : Reports broken found) : found = [] ↔ ∀ r g, ¬broken r g := by
  simp only [List.eq_nil_iff_forall_not_mem, h.mem_iff, not_exists]
  exact forall_comm

end Reports

end CommandBinding
