import CommandBinding.Proofs.AliasSpellings
import CommandBinding.Proofs.FlagAliases
import CommandBinding.Proofs.GroupWords
import Mathlib.Data.List.Forall2

/-!
The parts of a binding fit each other. Every stage may leave something out of its table: a row of an invalid label, a
meta flag without a payload, a blank group, the parameters that carry the state. In a binding nothing is left out that
the declaration asks for, since whatever is left out is found.
-/
namespace CommandBinding

/-- The tables of a binding are made for its parameters, and these are the bound parameters of the function. -/
structure Binding.Fits (b : Binding) (f : WorkFunction) (directive : Directive) (settings : Settings) : Prop where
  parameters : b.parameters = (f.parameters.filter (·.IsBound directive.kind)).map (·.bound settings)
  labels : b.tables.labels = b.parameters.map fun p => ⟨p.name, Aliases.ofLabel p.label settings.labelSeparator⟩
  aliases : b.tables.labels.Pairwise fun r s => ∀ text ∈ r.aliases.present, text ∉ s.aliases.present
  spellings : (b.tables.labels.flatMap (·.aliases.spellings)).Nodup
  meta_flags : List.Forall₂ (fun p m => m.parameter = p.name ∧ p.default? = some m.default)
    (b.parameters.filter (·.category = .metaFlag)) b.tables.metaFlags
  groups : ∀ group ∈ b.tables.shadowGroups, (∃ c ∈ group.toList, Unicode.isBlank c = false) ∧
    ∀ word ∈ words group, ∃ p ∈ b.parameters, p.name = word
  state : b.state.isSome = true ↔ directive.kind = .commandAction
  function : ∃ added, b.function = { f with parameters := f.parameters ++ added }

namespace StateThread

/-- A state adds parameters at the end only. -/
theorem parameters_of_resolve {f : WorkFunction} {settings : Settings} {t : ThreadedParameters}
    (h : resolve f settings = .ok t) : ∃ added, t.parameters = f.parameters ++ added := by
  rcases resolve_eq_ok_iff.mp h with ⟨front, last, h⟩ | ⟨element, h⟩
  · exact ⟨[], by rw [h.kept, List.append_nil]⟩
  · exact ⟨_, h.added⟩

end StateThread

namespace RuntimeTables

/-- Meta flags that have a payload have a row each, in their order. -/
theorem forall₂_metaFlags {ps : List BoundParameter}
    (h : ∀ p ∈ ps, p.category = .metaFlag → p.default? ≠ none) :
    List.Forall₂ (fun p m => m.parameter = p.name ∧ p.default? = some m.default)
      (ps.filter (·.category = .metaFlag)) (ps.filterMap metaFlagDefault?) := by
  induction ps with
  | nil => exact .nil
  | cons p ps ih =>
    have hps := ih fun q hq => h q (List.mem_cons_of_mem _ hq)
    by_cases hp : p.category = .metaFlag
    · obtain ⟨default, hdefault⟩ := Option.ne_none_iff_exists'.mp (h p (List.mem_cons_self ..) hp)
      have hrow : metaFlagDefault? p = some ⟨p.name, default⟩ := by
        simp [metaFlagDefault?, hp, hdefault]
      rw [List.filter_cons_of_pos (by simpa using hp), List.filterMap_cons_some hrow]
      exact .cons ⟨rfl, hdefault⟩ hps
    · have hnone : metaFlagDefault? p = none := by simp [metaFlagDefault?, hp]
      rwa [List.filter_cons_of_neg (by simpa using hp), List.filterMap_cons_none hnone]

end RuntimeTables

namespace WorkFunction

variable {f : WorkFunction} {directive : Directive} {settings : Settings} {b : Binding}

theorem hasPlainLabel_of_bind (h : f.bind directive settings = .ok b) {p : BoundParameter} (hp : p ∈ b.parameters) :
    AliasTable.HasPlainLabel p := by
  rw [parameters_of_bind h] at hp
  obtain ⟨q, hq, rfl⟩ := List.mem_map.mp hp
  exact (bindable_of_bind h).labels q hq

/-- No two rows of a binding share an alias. -/
theorem pairwise_labels_of_bind (h : f.bind directive settings = .ok b) :
    b.tables.labels.Pairwise fun r s => ∀ text ∈ r.aliases.present, text ∉ s.aliases.present := by
  rw [labels_of_bind h, parameters_of_bind h, List.map_map, List.pairwise_map]
  exact (bindable_of_bind h).aliases

theorem default_of_bound_metaFlag (h : f.bind directive settings = .ok b) {p : BoundParameter}
    (hp : p ∈ b.parameters) (hmeta : p.category = .metaFlag) : p.default? ≠ none := by
  rw [parameters_of_bind h] at hp
  obtain ⟨q, hq, rfl⟩ := List.mem_map.mp hp
  have hmeets := (bindable_of_bind h).categories q (List.mem_filter.mp hq).1
  unfold Parameter.MeetsCategory at hmeets
  rw [show q.category settings = .metaFlag from hmeta] at hmeets
  exact hmeets.1

theorem groups_of_bind (h : f.bind directive settings = .ok b) {group : String} (hgroup : group ∈ b.tables.shadowGroups) :
    words group ≠ [] ∧ ∀ word ∈ words group, ∃ p ∈ b.parameters, p.name = word := by
  obtain ⟨-, groups, _, _, hresolve, -, rfl⟩ := bind_eq_ok_iff.mp h
  obtain ⟨names, hnames, rfl⟩ := List.mem_map.mp hgroup
  obtain ⟨hne, hknown⟩ := ShadowGroup.words_of_resolve hresolve hnames
  exact ⟨hne, fun word hword => List.mem_map.mp (hknown word hword)⟩

/-- A state is there exactly for a command action, and the function is the declared one but for parameters at the
end. -/
theorem function_of_bind (h : f.bind directive settings = .ok b) :
    (b.state.isSome = true ↔ directive.kind = .commandAction) ∧
      ∃ added, b.function = { f with parameters := f.parameters ++ added } := by
  obtain ⟨-, _, function, state, -, hthreaded, rfl⟩ := bind_eq_ok_iff.mp h
  have hkind : directive.kind.threadsState = true ↔ directive.kind = .commandAction := by
    simp [DirectiveKind.threadsState]
  cases hthreads : directive.kind.threadsState with
  | false =>
    rw [threadedFor_of_not_threadsState hthreads] at hthreaded
    simp only [Except.ok.injEq, Prod.mk.injEq] at hthreaded
    obtain ⟨rfl, rfl⟩ := hthreaded
    rw [hthreads] at hkind
    exact ⟨hkind, [], by simp [assembled]⟩
  | true =>
    rw [threadedFor_of_threadsState hthreads] at hthreaded
    cases hresolve : StateThread.resolve f settings with
    | error found => simp [hresolve, Except.map] at hthreaded
    | ok t =>
      simp only [hresolve, Except.map, Except.ok.injEq, Prod.mk.injEq] at hthreaded
      obtain ⟨rfl, rfl⟩ := hthreaded
      obtain ⟨added, hadded⟩ := StateThread.parameters_of_resolve hresolve
      exact ⟨by simpa [assembled] using hkind.mp hthreads, added, by simp [assembled, hadded]⟩

/-- Whatever function is bound, the parts of its binding fit each other. -/
theorem fits_of_bind (h : f.bind directive settings = .ok b) : b.Fits f directive settings where
  parameters := parameters_of_bind h
  labels := labels_of_bind h
  aliases := pairwise_labels_of_bind h
  spellings := by
    have hrows := pairwise_labels_of_bind h
    rw [labels_of_bind h] at hrows ⊢
    exact AliasTable.nodup_spellings_of_rows (fun p hp => hasPlainLabel_of_bind h hp) hrows
  meta_flags := by
    have htable : b.tables.metaFlags = b.parameters.filterMap RuntimeTables.metaFlagDefault? := by
      obtain ⟨-, _, _, _, _, _, rfl⟩ := bind_eq_ok_iff.mp h
      rfl
    rw [htable]
    exact RuntimeTables.forall₂_metaFlags fun p hp => default_of_bound_metaFlag h hp
  groups group hgroup := by
    obtain ⟨hne, hnames⟩ := groups_of_bind h hgroup
    exact ⟨ShadowGroup.exists_not_blank_of_words hne, hnames⟩
  state := (function_of_bind h).1
  function := (function_of_bind h).2

/-- A command action with a meta flag and a shadow group that is written with more blanks than it needs. -/
theorem fits_of_bind_build :
    let f : WorkFunction :=
      ⟨"build", "", "", false, false, [⟨"v__verbose", "verbose", "Flag", none⟩, ⟨"count", "count", "i32", none⟩,
        ⟨"h__help", "help", "MetaFlag", some "MetaFlag::text(USAGE)"⟩], "Vec<Widget>"⟩
    let directive : Directive :=
      { kind := .commandAction, shadowGroups := [.literal " verbose\tcount ", .literal " "] }
    ∃ b, f.bind directive {} = .ok b ∧ b.tables.shadowGroups = ["verbose count"] ∧ b.Fits f directive {} := by
  intro f directive
  have hgroups : (f.bind directive {}).toOption.map (·.tables.shadowGroups) = some ["verbose count"] := by
    decide +kernel
  cases hb : f.bind directive {} with
  | error found => simp [hb, Except.toOption] at hgroups
  | ok b =>
    simp only [hb, Except.toOption, Option.map_some, Option.some.injEq] at hgroups
    exact ⟨b, rfl, hgroups, fits_of_bind hb⟩

end WorkFunction

end CommandBinding
