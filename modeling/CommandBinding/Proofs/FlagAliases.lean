import CommandBinding.Proofs.BindingReports

/-!
Aliases of the parameters of a binding. Every parameter has its row in the table, and the labels that give no alias
are the two placeholders and the separator alone. A flag may not have a placeholder for its label, so of the flags of
a binding exactly those that are labelled by the separator cannot be typed.
-/
namespace CommandBinding

/-- A text is cut into two empty pieces only if it is the separator. -/
theorem cutAtFirst_eq_nil_nil_iff {separator cs : List Char} (h : separator ≠ []) :
    cutAtFirst separator cs = some ([], []) ↔ cs = separator := by
  constructor
  · intro hcut
    simpa using eq_append_of_cutAtFirst hcut
  · rintro rfl
    cases cs with
    | nil => exact absurd rfl h
    | cons c rest => simp [cutAtFirst]

theorem cutAtFirst_nil {separator : List Char} (h : separator ≠ []) : cutAtFirst separator [] = none := by
  simp [cutAtFirst, h]

namespace Aliases

theorem nonEmpty_eq_none_iff {cs : List Char} : nonEmpty cs = none ↔ cs = [] := by
  cases cs <;> simp [nonEmpty]

/-- The long alias is none of the aliases that a head gives. -/
theorem isEmpty_with_long {head : List Char} {long : Option String} :
    ({ ofHead head with long := long } : Aliases).isEmpty = true ↔ head = [] ∧ long = none := by
  match head with
  | [] => simp [ofHead, isEmpty]
  | [c] => simp [ofHead, isEmpty]
  | c :: d :: rest => simp [ofHead, isEmpty]

/-- The labels without an alias: the two placeholders, and the separator with nothing on either side. -/
theorem ofLabel_isEmpty_iff {label separator : String} (h : separator ≠ "") :
    (ofLabel label separator).isEmpty = true ↔ label = positionalLabel ∨ label = "" ∨ label = separator := by
  have hsep : separator.toList ≠ [] := by simpa using h
  unfold ofLabel
  by_cases hpos : label = positionalLabel
  · simp [hpos, isEmpty]
  · rw [if_neg hpos]
    cases hcut : cutAtFirst separator.toList label.toList with
    | none =>
      have hne : label ≠ separator := by
        rintro rfl
        simp [(cutAtFirst_eq_nil_nil_iff hsep).mpr rfl] at hcut
      simp only [isEmpty_with_long, hpos, hne, false_or, or_false]
      constructor
      · rintro ⟨hnil, -⟩
        simpa using hnil
      · rintro rfl
        simp [ofHead]
    | some pieces =>
      obtain ⟨head, tail⟩ := pieces
      have hne : label ≠ "" := by
        rintro rfl
        simp [cutAtFirst_nil hsep] at hcut
      simp only [isEmpty_with_long, nonEmpty_eq_none_iff, hpos, hne, false_or]
      rw [← String.toList_inj, ← cutAtFirst_eq_nil_nil_iff hsep, hcut]
      simp

end Aliases

namespace WorkFunction

variable {f : WorkFunction} {directive : Directive} {settings : Settings} {b : Binding}

theorem bindable_of_bind (h : f.bind directive settings = .ok b) : f.Bindable directive settings :=
  allFindings_eq_nil_iff.mp (bind_eq_ok_iff.mp h).1

theorem parameters_of_bind (h : f.bind directive settings = .ok b) :
    b.parameters = (f.boundParameters directive.kind).map (·.bound settings) := by
  obtain ⟨-, _, _, _, _, _, rfl⟩ := bind_eq_ok_iff.mp h
  exact commandLineParameters_eq_map

/-- The rows of the table are those of the parameters, one for each and in their order. -/
theorem labels_of_bind (h : f.bind directive settings = .ok b) :
    b.tables.labels = b.parameters.map (AliasTable.row settings.labelSeparator) := by
  have hvalid : ∀ p ∈ b.parameters, isValidLabel p.label = true := by
    intro p hp
    rw [parameters_of_bind h] at hp
    obtain ⟨q, hq, rfl⟩ := List.mem_map.mp hp
    exact isValidLabel_iff.mpr ((bindable_of_bind h).labels q hq)
  have hlabels : b.tables.labels = AliasTable.ofParameters b.parameters settings.labelSeparator := by
    obtain ⟨-, _, _, _, _, _, rfl⟩ := bind_eq_ok_iff.mp h
    rfl
  rw [hlabels, AliasTable.ofParameters, List.filter_eq_self.mpr hvalid]

/-- A flag of a binding has a label that is no placeholder. -/
theorem label_of_bound_flag (h : f.bind directive settings = .ok b) {p : BoundParameter} (hp : p ∈ b.parameters)
    (hflag : p.category = .flag ∨ p.category = .metaFlag) : p.label ≠ positionalLabel ∧ p.label ≠ "" := by
  rw [parameters_of_bind h] at hp
  obtain ⟨q, hq, rfl⟩ := List.mem_map.mp hp
  have hmeets := (bindable_of_bind h).categories q (List.mem_filter.mp hq).1
  unfold Parameter.MeetsCategory at hmeets
  rcases hflag with hflag | hflag
  · rw [show q.category settings = .flag from hflag] at hmeets
    exact hmeets.2
  · rw [show q.category settings = .metaFlag from hflag] at hmeets
    exact hmeets.2

/-- Where `__` separates the halves of a label, a flag of a binding has an alias in its row unless its label is `__`. -/
theorem bound_flag_has_alias_iff (hsep : settings.labelSeparator = "__") (h : f.bind directive settings = .ok b)
    {i : Nat} {p : BoundParameter} (hp : b.parameters[i]? = some p)
    (hflag : p.category = .flag ∨ p.category = .metaFlag) :
    ∃ row, b.tables.labels[i]? = some row ∧ row.parameter = p.name ∧
      (row.aliases.isEmpty = false ↔ p.label ≠ "__") := by
  have hrow : b.tables.labels[i]? = some (AliasTable.row settings.labelSeparator p) := by
    simp [labels_of_bind h, hp]
  obtain ⟨hplaceholder, hempty⟩ := label_of_bound_flag h (List.mem_of_getElem? hp) hflag
  refine ⟨_, hrow, rfl, ?_⟩
  rw [AliasTable.row, hsep, ← Bool.not_eq_true, Aliases.ofLabel_isEmpty_iff (by decide)]
  simp [hplaceholder, hempty]

/-- Of a flag that is labelled `v__verbose` and one that is labelled `__`, the second cannot be typed. -/
theorem bound_flag_has_alias_iff_of_two_flags :
    let f : WorkFunction :=
      ⟨"build", "", "", false, false, [⟨"v__verbose", "verbose", "Flag", none⟩, ⟨"__", "quiet", "Flag", none⟩], ""⟩
    ∃ b, f.bind { kind := .callFunction } {} = .ok b ∧
      (∃ row, b.tables.labels[0]? = some row ∧ row.parameter = "verbose" ∧ row.aliases.isEmpty = false) ∧
      ∃ row, b.tables.labels[1]? = some row ∧ row.parameter = "quiet" ∧ row.aliases.isEmpty = true := by
  intro f
  have hps : (f.bind { kind := .callFunction } {}).toOption.map (·.parameters) =
      some [⟨"verbose", "v__verbose", .flag, none⟩, ⟨"quiet", "__", .flag, none⟩] := by
    decide +kernel
  cases hb : f.bind { kind := .callFunction } {} with
  | error found => simp [hb, Except.toOption] at hps
  | ok b =>
    simp only [hb, Except.toOption, Option.map_some, Option.some.injEq] at hps
    obtain ⟨row, hrow, hname, hverbose⟩ := bound_flag_has_alias_iff rfl hb (i := 0) (by rw [hps]; rfl) (.inl rfl)
    obtain ⟨row', hrow', hname', hquiet⟩ := bound_flag_has_alias_iff rfl hb (i := 1) (by rw [hps]; rfl) (.inl rfl)
    refine ⟨b, rfl, ⟨row, hrow, hname, hverbose.mpr (by decide)⟩, row', hrow', hname', ?_⟩
    simpa using hquiet

end WorkFunction

end CommandBinding
