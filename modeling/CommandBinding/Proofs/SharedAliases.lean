import CommandBinding.Proofs.AscendingTexts
import CommandBinding.Proofs.BindingRules

/-!
The alias table of any parameters and what it reports. A parameter claims the aliases that its label gives if the label
is valid. Every alias that is claimed in two places is reported once, with all its claimants; that the aliases of one
parameter coincide is no conflict, since a parameter stands in one place.
-/
namespace CommandBinding.AliasTable

variable {ps : List BoundParameter} {separator text : String} {table : AliasTable}

/-- Only ASCII letters, digits and underscores. -/
def HasPlainLabel (p : BoundParameter) : Prop :=
  ∀ c ∈ p.label.toList, c.isAlphanum ∨ c = '_'

def Claims (separator text : String) (p : BoundParameter) : Prop :=
  HasPlainLabel p ∧ text ∈ (Aliases.ofLabel p.label separator).present

instance (p : BoundParameter) : Decidable (HasPlainLabel p) :=
  inferInstanceAs (Decidable (∀ c ∈ p.label.toList, c.isAlphanum ∨ c = '_'))

instance (separator text : String) (p : BoundParameter) : Decidable (Claims separator text p) :=
  inferInstanceAs (Decidable (_ ∧ _))

theorem isValidLabel_eq_decide (p : BoundParameter) : isValidLabel p.label = decide (HasPlainLabel p) := by
  rw [Bool.eq_iff_iff, isValidLabel_iff, decide_eq_true_eq]
  rfl

theorem claims_iff {p : BoundParameter} : Claims separator text p ↔
    isValidLabel p.label = true ∧ text ∈ (Aliases.ofLabel p.label separator).present := by
  rw [isValidLabel_iff]
  rfl

/-- The rows that claim an alias are those of the parameters that claim it. -/
theorem claimants_eq_map (ps : List BoundParameter) (separator text : String) :
    (ofParameters ps separator).claimants text = (ps.filter (Claims separator text)).map (·.name) := by
  rw [claimants, ofParameters, List.filter_map, List.map_map, List.filter_filter]
  refine congrArg (List.map _) (List.filter_congr fun p _ => ?_)
  rw [Bool.eq_iff_iff, Bool.and_eq_true, Function.comp_apply, List.contains_iff_mem, Aliases.texts,
    List.mem_eraseDups, decide_eq_true_eq, claims_iff, and_comm]
  rfl

theorem mem_claimed_of_claimants (h : table.claimants text ≠ []) : text ∈ table.claimed := by
  obtain ⟨name, hname⟩ := List.exists_mem_of_ne_nil _ h
  obtain ⟨row, hrow, -⟩ := List.mem_map.mp hname
  obtain ⟨hrow, htext⟩ := List.mem_filter.mp hrow
  exact mem_ascending.mpr (List.mem_flatMap.mpr ⟨row, hrow, by simpa using htext⟩)

def shared (table : AliasTable) : List String :=
  table.claimed.filter fun text => 1 < (table.claimants text).length

theorem conflicts_eq_map (table : AliasTable) :
    table.conflicts = table.shared.map fun text => .onFunction (.duplicateAlias text (table.claimants text)) := by
  rw [conflicts, shared]
  induction table.claimed with
  | nil => rfl
  | cons text texts ih =>
    by_cases h : 1 < (table.claimants text).length <;> simp [h, ih]

theorem pairwise_shared (table : AliasTable) : table.shared.Pairwise (· < ·) :=
  (pairwise_ascending _).filter _

theorem mem_shared_iff : text ∈ table.shared ↔ 1 < (table.claimants text).length := by
  rw [shared, List.mem_filter, decide_eq_true_eq]
  refine ⟨fun h => h.2, fun h => ⟨mem_claimed_of_claimants ?_, h⟩⟩
  exact List.ne_nil_of_length_pos (by omega)

/-- More than one member of a list satisfies a test exactly if those in two places do. -/
theorem one_lt_length_filter_iff {α : Type} (test : α → Prop) [DecidablePred test] (members : List α) :
    1 < (members.filter test).length ↔ ∃ (i j : Nat) (a b : α), i < j ∧ members[i]? = some a ∧
      members[j]? = some b ∧ test a ∧ test b := by
  induction members with
  | nil => simp
  | cons first rest ih =>
    have hrest : (∃ (i j : Nat) (a b : α), i < j ∧ (first :: rest)[i]? = some a ∧
        (first :: rest)[j]? = some b ∧ test a ∧ test b) ↔
        (test first ∧ ∃ b ∈ rest, test b) ∨ 1 < (rest.filter test).length := by
      rw [ih]
      constructor
      · rintro ⟨_ | i, _ | j, a, b, hij, ha, hb, htest⟩
        · omega
        · obtain rfl : first = a := by simpa using ha
          exact Or.inl ⟨htest.1, b, List.mem_of_getElem? (by simpa using hb), htest.2⟩
        · omega
        · exact Or.inr ⟨i, j, a, b, by omega, by simpa using ha, by simpa using hb, htest⟩
      · rintro (⟨hfirst, b, hb, htest⟩ | ⟨i, j, a, b, hij, ha, hb, htest⟩)
        · obtain ⟨j, hj⟩ := List.getElem?_of_mem hb
          exact ⟨0, j + 1, first, b, by omega, rfl, by simpa using hj, hfirst, htest⟩
        · exact ⟨i + 1, j + 1, a, b, by omega, by simpa using ha, by simpa using hb, htest⟩
    rw [hrest]
    by_cases hfirst : test first
    · have hpos : 0 < (rest.filter test).length ↔ ∃ b ∈ rest, test b := by
        simp [List.length_pos_iff_exists_mem]
      simp only [hfirst, decide_true, List.filter_cons_of_pos, List.length_cons, true_and, ← hpos]
      omega
    · simp [hfirst]

/-- The table holds the rows of the parameters with a valid label. The others are reported first, and then every alias
that is claimed in two places, ascending and with all its claimants. -/
theorem build_reports_labels_and_shared_aliases (ps : List BoundParameter) (separator : String) :
    (build ps separator).1 =
        (ps.filter HasPlainLabel).map (fun p => ⟨p.name, Aliases.ofLabel p.label separator⟩) ∧
      ∃ texts : List String, texts.Pairwise (· < ·) ∧
        (∀ text, text ∈ texts ↔ ∃ (i j : Nat) (p q : BoundParameter), i < j ∧ ps[i]? = some p ∧ ps[j]? = some q ∧
          Claims separator text p ∧ Claims separator text q) ∧
        (build ps separator).2 =
          (ps.filter (¬HasPlainLabel ·)).map (fun p => .onParameter p.name (.invalidLabel p.name p.label)) ++
            texts.map fun text =>
              .onFunction (.duplicateAlias text ((ps.filter (Claims separator text)).map (·.name))) := by
  have hvalid : ps.filter (fun p => isValidLabel p.label) = ps.filter HasPlainLabel :=
    List.filter_congr fun p _ => isValidLabel_eq_decide p
  have hinvalid : ps.filter (fun p => !isValidLabel p.label) = ps.filter (¬HasPlainLabel ·) := by
    apply List.filter_congr
    intro p _
    rw [isValidLabel_eq_decide, decide_not]
  refine ⟨?_, (ofParameters ps separator).shared, pairwise_shared _, fun text => ?_, ?_⟩
  · rw [build, ofParameters, hvalid]
    rfl
  · rw [mem_shared_iff, claimants_eq_map, List.length_map, one_lt_length_filter_iff]
  · simp only [build, labelFindings, conflicts_eq_map, claimants_eq_map, hinvalid]

end CommandBinding.AliasTable
