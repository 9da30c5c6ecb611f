import CommandBinding.Proofs.BindingFindings
import CommandBinding.Proofs.BindingRules
import CommandBinding.Proofs.Reports
import CommandBinding.Proofs.SharedAliases
import Mathlib.Data.List.Nodup

/-!
The stages of `WorkFunction.bind` look at different parts of the input. Each is shown to report its own rules, one
finding for each that is broken; no stage waits for another one, so all of them together report all rules.
-/
namespace CommandBinding

variable {f : WorkFunction} {p : Parameter} {kind : DirectiveKind} {directive : Directive} {settings : Settings}

namespace Parameter

variable {place : Nat}

/-- The rules of the category of a parameter, as rules for its place. -/
def BreaksIn (p : Parameter) (settings : Settings) (place : Nat) (rule : Rule) (finding : Finding) : Prop :=
  ∃ r fault, p.Breaks settings r fault ∧ rule = .category place r ∧ finding = .onParameter p.name fault

theorem findings_eq (p : Parameter) (settings : Settings) :
    p.findings settings = (p.categoryFaults settings (p.category settings)).map (.onParameter p.name) :=
  rfl

/-- A category without a rule for the label. -/
theorem reports_of_default_rule (c : Prop) [Decidable c] (fault : Fault)
    (hfound : p.findings settings = if c then [.onParameter p.name fault] else [])
    (hbreaks : ∀ rule other, p.Breaks settings rule other ↔ c ∧ rule = .default ∧ other = fault) :
    Reports (p.BreaksIn settings place) (p.findings settings) := by
  rw [hfound]
  refine (Reports.ite c (.category place .default) _).congr ?_
  intro r g
  simp only [BreaksIn, hbreaks]
  constructor
  · rintro ⟨rule, other, ⟨hc, rfl, rfl⟩, rfl, rfl⟩
    exact ⟨hc, rfl, rfl⟩
  · rintro ⟨hc, rfl, rfl⟩
    exact ⟨_, _, ⟨hc, rfl, rfl⟩, rfl, rfl⟩

/-- A category with a rule for the default and one for the label. -/
theorem reports_of_two_rules (c l : Prop) [Decidable c] [Decidable l] (fault labelFault : Fault)
    (hfound : p.findings settings = (if c then [.onParameter p.name fault] else []) ++
      if l then [.onParameter p.name labelFault] else [])
    (hbreaks : ∀ rule other, p.Breaks settings rule other ↔
      c ∧ rule = .default ∧ other = fault ∨ l ∧ rule = .label ∧ other = labelFault) :
    Reports (p.BreaksIn settings place) (p.findings settings) := by
  rw [hfound]
  refine ((Reports.ite c (.category place .default) _).append (Reports.ite l (.category place .label) _) ?_).congr ?_
  · rintro _ _ _ ⟨-, rfl, -⟩ ⟨-, h, -⟩
    cases h
  · intro r g
    simp only [BreaksIn, hbreaks]
    constructor
    · rintro ⟨rule, other, ⟨hc, rfl, rfl⟩ | ⟨hl, rfl, rfl⟩, rfl, rfl⟩
      · exact Or.inl ⟨hc, rfl, rfl⟩
      · exact Or.inr ⟨hl, rfl, rfl⟩
    · rintro (⟨hc, rfl, rfl⟩ | ⟨hl, rfl, rfl⟩)
      · exact ⟨_, _, Or.inl ⟨hc, rfl, rfl⟩, rfl, rfl⟩
      · exact ⟨_, _, Or.inr ⟨hl, rfl, rfl⟩, rfl, rfl⟩

theorem isPlaceholderLabel_iff {label : String} : isPlaceholderLabel label = true ↔ label = "_" ∨ label = "" := by
  simp [isPlaceholderLabel, positionalLabel]

theorem not_all_iff {default? : Option String} {test : String → Bool} :
    ¬default?.all test = true ↔ ∃ text, default? = some text ∧ ¬test text = true := by
  cases default? <;> simp

/-- The findings about one parameter report the rules of its category. -/
theorem reports_findings (p : Parameter) (settings : Settings) (place : Nat) :
    Reports (p.BreaksIn settings place) (p.findings settings) := by
  cases hcat : p.category settings with
  | value type =>
    rw [findings_eq, hcat]
    refine Reports.none ?_
    rintro r g ⟨rule, fault, hfault, -, -⟩
    cases hfault <;> simp_all
  | flag =>
    refine reports_of_two_rules (p.default? = some "true") (isPlaceholderLabel p.label = true)
      (.flagDefaultsToTrue p.name) (.unlabeledFlag p.name settings.flagType) ?_ ?_
    · simp only [findings_eq, hcat, categoryFaults, labelFaults]
      split_ifs <;> rfl
    · intro rule other
      rw [isPlaceholderLabel_iff]
      constructor
      · intro h
        cases h <;> simp_all
      · rintro (⟨hd, rfl, rfl⟩ | ⟨hl, rfl, rfl⟩)
        · exact .flagDefault hcat hd
        · exact .flagLabel hcat hl
  | metaFlag =>
    refine reports_of_two_rules (p.default?.isNone = true) (isPlaceholderLabel p.label = true)
      (.missingMetaFlagDefault p.name) (.unlabeledFlag p.name settings.metaFlagType) ?_ ?_
    · simp only [findings_eq, hcat, categoryFaults, labelFaults]
      split_ifs <;> rfl
    · intro rule other
      rw [isPlaceholderLabel_iff, Option.isNone_iff_eq_none]
      constructor
      · intro h
        cases h <;> simp_all
      · rintro (⟨hd, rfl, rfl⟩ | ⟨hl, rfl, rfl⟩)
        · exact .metaFlagDefault hcat hd
        · exact .metaFlagLabel hcat hl
  | optional type =>
    refine reports_of_default_rule (¬p.default?.all (· == "None") = true) (.optionalWithDefault p.name) ?_ ?_
    · simp only [findings_eq, hcat, categoryFaults, ite_not]
      split_ifs <;> rfl
    · intro rule other
      rw [not_all_iff]
      constructor
      · intro h
        cases h <;> simp_all
      · rintro ⟨⟨text, hd, htext⟩, rfl, rfl⟩
        exact .optionalDefault hcat hd (by simpa using htext)
  | array type =>
    refine reports_of_default_rule (¬p.default?.all emptySequenceTexts.contains = true)
      (.nonEmptySequenceDefault p.name "arrays") ?_ ?_
    · simp only [findings_eq, hcat, categoryFaults, ite_not]
      split_ifs <;> rfl
    · intro rule other
      rw [not_all_iff]
      constructor
      · intro h
        cases h <;> simp_all
      · rintro ⟨⟨text, hd, htext⟩, rfl, rfl⟩
        exact .arrayDefault hcat hd (by simpa using htext)
  | variadic type =>
    refine reports_of_default_rule (¬p.default?.all emptySequenceTexts.contains = true)
      (.nonEmptySequenceDefault p.name "variadics") ?_ ?_
    · simp only [findings_eq, hcat, categoryFaults, ite_not]
      split_ifs <;> rfl
    · intro rule other
      rw [not_all_iff]
      constructor
      · intro h
        cases h <;> simp_all
      · rintro ⟨⟨text, hd, htext⟩, rfl, rfl⟩
        exact .variadicDefault hcat hd (by simpa using htext)

end Parameter

namespace WorkFunction

def BreaksAt (f : WorkFunction) (directive : Directive) (settings : Settings) (stage : Stage) (rule : Rule)
    (finding : Finding) : Prop :=
  rule.stage = stage ∧ f.Breaks directive settings rule finding

theorem usageFindings_eq : f.usageFindings kind =
    (if isReservedName f.name = true then [.onFunction .reservedFunctionName] else []) ++
      ((if kind = .mainFunction ∧ f.returnType ≠ "" then [.onFunction .mainFunctionReturnsValue] else []) ++
        (if kind = .mainFunction ∧ f.generics ≠ "" then [.onFunction .genericMainFunction] else [])) := by
  unfold usageFindings
  split_ifs <;> simp_all

theorem reports_usage (f : WorkFunction) (directive : Directive) (settings : Settings) :
    Reports (f.BreaksAt directive settings .usage) (f.usageFindings directive.kind) := by
  rw [usageFindings_eq]
  refine ((Reports.ite _ .functionName _).append
    ((Reports.ite _ .mainReturnType _).append (Reports.ite _ .mainGenerics _) ?_) ?_).congr ?_
  · rintro _ _ _ ⟨-, rfl, -⟩ ⟨-, h, -⟩
    cases h
  · rintro _ _ _ ⟨-, rfl, -⟩ (⟨-, h, -⟩ | ⟨-, h, -⟩) <;> cases h
  · intro r g
    constructor
    · rintro ⟨hstage, hbroken⟩
      cases hbroken with
      | functionName hsize hstart hend => exact Or.inl ⟨by simp [isReservedName, hsize, hstart, hend], rfl, rfl⟩
      | mainReturnType hkind hreturn => exact Or.inr (Or.inl ⟨⟨hkind, hreturn⟩, rfl, rfl⟩)
      | mainGenerics hkind hgenerics => exact Or.inr (Or.inr ⟨⟨hkind, hgenerics⟩, rfl, rfl⟩)
      | _ => cases hstage
    · rintro (⟨h, rfl, rfl⟩ | ⟨⟨hkind, h⟩, rfl, rfl⟩ | ⟨⟨hkind, h⟩, rfl, rfl⟩)
      · simp only [isReservedName, Bool.and_eq_true, decide_eq_true_eq] at h
        exact ⟨rfl, .functionName h.1.1 h.1.2 h.2⟩
      · exact ⟨rfl, .mainReturnType hkind h⟩
      · exact ⟨rfl, .mainGenerics hkind h⟩

theorem reports_categories (f : WorkFunction) (directive : Directive) (settings : Settings) :
    Reports (f.BreaksAt directive settings .categories) (f.parameters.flatMap (·.findings settings)) := by
  refine (Reports.places (fun place p => p.reports_findings settings place) ?_ f.parameters).congr ?_
  · rintro _ _ _ _ _ _ _ ⟨_, _, -, rfl, -⟩ ⟨_, _, -, h, -⟩
    exact (Rule.category.inj h).1
  · intro r g
    constructor
    · rintro ⟨hstage, hbroken⟩
      cases hbroken with
      | category hp hfault => exact ⟨_, _, hp, _, _, hfault, rfl, rfl⟩
      | _ => cases hstage
    · rintro ⟨place, p, hp, rule, fault, hfault, rfl, rfl⟩
      exact ⟨rfl, .category hp hfault⟩

def LabelBreaksAt (place : Nat) (p : Parameter) (rule : Rule) (finding : Finding) : Prop :=
  isValidLabel p.label = false ∧ rule = .label place ∧ finding = .onParameter p.name (.invalidLabel p.name p.label)

theorem labelFindings_eq : AliasTable.labelFindings (f.commandLineParameters kind settings) =
    (f.boundParameters kind).flatMap fun p =>
      if isValidLabel p.label = false then [.onParameter p.name (.invalidLabel p.name p.label)] else [] := by
  rw [AliasTable.labelFindings, commandLineParameters_eq_map]
  induction f.boundParameters kind with
  | nil => rfl
  | cons p ps ih =>
    rw [List.map_cons, List.flatMap_cons, ← ih]
    cases h : isValidLabel p.label <;> simp [Parameter.bound, h]

theorem reports_labels (f : WorkFunction) (directive : Directive) (settings : Settings) :
    Reports (f.BreaksAt directive settings .labels)
      (AliasTable.labelFindings (f.commandLineParameters directive.kind settings)) := by
  rw [labelFindings_eq]
  have hplace (place : Nat) (p : Parameter) : Reports (LabelBreaksAt place p)
      (if isValidLabel p.label = false then [.onParameter p.name (.invalidLabel p.name p.label)] else []) :=
    Reports.ite _ _ _
  refine (Reports.places hplace ?_ _).congr ?_
  · rintro _ _ _ _ _ _ _ ⟨-, rfl, -⟩ ⟨-, h, -⟩
    exact Rule.label.inj h
  · intro r g
    constructor
    · rintro ⟨hstage, hbroken⟩
      cases hbroken with
      | label hp hlabel => exact ⟨_, _, hp, by rwa [← Bool.not_eq_true, isValidLabel_iff], rfl, rfl⟩
      | _ => cases hstage
    · rintro ⟨place, p, hp, hlabel, rfl, rfl⟩
      rw [← Bool.not_eq_true, isValidLabel_iff] at hlabel
      exact ⟨rfl, .label hp hlabel⟩

/-- The parameters that claim an alias in the table are those that claim it in the declaration. -/
theorem claimants_ofParameters {text : String} :
    (AliasTable.ofParameters (f.commandLineParameters kind settings) settings.labelSeparator).claimants text =
      f.claimants kind settings text := by
  rw [AliasTable.claimants_eq_map, commandLineParameters_eq_map, List.filter_map, List.map_map, claimants]
  refine congrArg (List.map _) (List.filter_congr fun p _ => ?_)
  rw [Bool.eq_iff_iff, Bool.and_eq_true, Function.comp_apply, decide_eq_true_eq, AliasTable.claims_iff,
    List.contains_iff_mem]
  rfl

theorem reports_aliases (f : WorkFunction) (directive : Directive) (settings : Settings) :
    Reports (f.BreaksAt directive settings .aliases)
      (AliasTable.ofParameters (f.commandLineParameters directive.kind settings) settings.labelSeparator).conflicts := by
  have hinj (text text' : String) (h : Rule.sharedAlias text = .sharedAlias text') : text = text' :=
    Rule.sharedAlias.inj h
  refine (Reports.filterMap (nodup_ascending _) hinj).congr ?_
  intro r g
  simp only [claimants_ofParameters]
  constructor
  · rintro ⟨hstage, hbroken⟩
    cases hbroken with
    | @sharedAlias text hclaimants =>
      refine ⟨text, AliasTable.mem_claimed_of_claimants ?_, rfl, if_pos hclaimants⟩
      rw [claimants_ofParameters]
      exact List.ne_nil_of_length_pos (by omega)
    | _ => cases hstage
  · rintro ⟨text, -, rfl, hg⟩
    split at hg
    · next hclaimants =>
      obtain rfl := Option.some.inj hg
      exact ⟨rfl, .sharedAlias hclaimants⟩
    · cases hg

theorem groupsFor_eq : f.groupsFor directive settings =
    ShadowGroup.resolve directive.shadowGroups ((f.boundParameters directive.kind).map (·.name)) := by
  rw [groupsFor, commandLineParameters_eq_map, List.map_map]
  rfl

/-- The arguments are reported as a whole: if one is no literal, no name is looked at. -/
theorem reports_groups (f : WorkFunction) (directive : Directive) (settings : Settings) :
    Reports (f.BreaksAt directive settings .groups) (groupFindings (f.groupsFor directive settings)) := by
  rw [groupsFor_eq, ShadowGroup.resolve]
  cases hliterals : ShadowGroup.literals? directive.shadowGroups with
  | none =>
    have hnone (texts : List String) : directive.shadowGroups ≠ texts.map .literal := by
      intro h
      simp [ShadowGroup.literals?_eq_some_iff.mpr h] at hliterals
    refine (Reports.single .shadowGroups _).congr fun r g => ⟨?_, ?_⟩
    · rintro ⟨hstage, hbroken⟩
      cases hbroken with
      | groupsNotLiteral _ => exact ⟨rfl, rfl⟩
      | groupsUnknown hliteral _ => exact absurd hliteral (hnone _)
      | _ => cases hstage
    · rintro ⟨rfl, rfl⟩
      rcases ShadowGroup.literals_or_expression directive.shadowGroups with ⟨texts, h⟩ | ⟨text, h⟩
      · exact absurd h (hnone texts)
      · exact ⟨rfl, .groupsNotLiteral h⟩
  | some texts =>
    have hliteral := ShadowGroup.literals?_eq_some_iff.mp hliterals
    have hexpression (text : String) : .expression text ∉ directive.shadowGroups := by
      simp [hliteral]
    have htexts {others : List String} (h : directive.shadowGroups = others.map .literal) : others = texts :=
      Option.some.inj ((ShadowGroup.literals?_eq_some_iff.mpr h).symm.trans hliterals)
    have hfound : groupFindings (if (f.unknownNames directive texts).isEmpty then .ok (ShadowGroup.ofTexts texts)
        else .error (.onDirective (.unknownShadowedNames (f.unknownNames directive texts)))) =
        if f.unknownNames directive texts ≠ [] then
          [.onDirective (.unknownShadowedNames (f.unknownNames directive texts))]
        else [] := by
      by_cases hunknown : f.unknownNames directive texts = [] <;> simp [hunknown, groupFindings]
    refine hfound ▸ (Reports.ite _ .shadowGroups _).congr fun r g => ⟨?_, ?_⟩
    · rintro ⟨hstage, hbroken⟩
      cases hbroken with
      | groupsNotLiteral h => exact absurd h (hexpression _)
      | groupsUnknown h hunknown =>
        obtain rfl := htexts h
        exact ⟨hunknown, rfl, rfl⟩
      | _ => cases hstage
    · rintro ⟨hunknown, rfl, rfl⟩
      exact ⟨rfl, .groupsUnknown hliteral hunknown⟩

theorem reports_state (f : WorkFunction) (directive : Directive) (settings : Settings) :
    Reports (f.BreaksAt directive settings .state) (failures (f.threadedFor directive.kind settings)) := by
  by_cases hkind : directive.kind = .commandAction
  · rw [threadedFor_of_threadsState (by simp [hkind, DirectiveKind.threadsState])]
    cases hresolve : StateThread.resolve f settings with
    | ok t =>
      refine Reports.none ?_
      rintro r g ⟨hstage, hbroken⟩
      cases hbroken with
      | state _ herror _ => simp [hresolve] at herror
      | _ => cases hstage
    | error found =>
      refine ⟨found.map fun finding => (.state finding.fault, finding), ?_, fun r g => ?_, ?_⟩
      · have hinjective : Function.Injective Rule.state := fun _ _ => Rule.state.inj
        have hnodup := (StateThread.nodup_of_resolve_eq_error hresolve).2.map hinjective
        rwa [List.map_map] at hnodup ⊢
      · rw [List.mem_map]
        constructor
        · rintro ⟨finding, hfinding, h⟩
          obtain ⟨rfl, rfl⟩ := Prod.mk.inj h
          exact ⟨rfl, .state hkind hresolve hfinding⟩
        · rintro ⟨hstage, hbroken⟩
          cases hbroken with
          | state _ herror hfinding =>
            obtain rfl := Except.error.inj (hresolve.symm.trans herror)
            exact ⟨g, hfinding, rfl⟩
          | _ => cases hstage
      · rw [List.map_map]
        exact List.map_id found
  · have hthreads : directive.kind.threadsState = false := by simpa [DirectiveKind.threadsState] using hkind
    rw [threadedFor_of_not_threadsState hthreads]
    refine Reports.none ?_
    rintro r g ⟨hstage, hbroken⟩
    cases hbroken with
    | state h _ _ => exact hkind h
    | _ => cases hstage

/-- The findings of all stages report all rules. -/
theorem reports_allFindings (f : WorkFunction) (directive : Directive) (settings : Settings) :
    Reports (f.Breaks directive settings) (f.allFindings directive settings) := by
  have haliases : f.allFindings directive settings = f.usageFindings directive.kind ++
      f.parameters.flatMap (·.findings settings) ++
      (AliasTable.labelFindings (f.commandLineParameters directive.kind settings) ++
        (AliasTable.ofParameters (f.commandLineParameters directive.kind settings) settings.labelSeparator).conflicts) ++
      groupFindings (f.groupsFor directive settings) ++ failures (f.threadedFor directive.kind settings) := rfl
  rw [haliases]
  refine ((((reports_usage f directive settings).append (reports_categories f directive settings) ?_).append
    ((reports_labels f directive settings).append (reports_aliases f directive settings) ?_) ?_).append
    (reports_groups f directive settings) ?_).append (reports_state f directive settings) ?_ |>.congr ?_
  · rintro r _ _ ⟨h, -⟩ ⟨h', -⟩
    simp [h] at h'
  · rintro r _ _ ⟨h, -⟩ ⟨h', -⟩
    simp [h] at h'
  · rintro r _ _ (⟨h, -⟩ | ⟨h, -⟩) (⟨h', -⟩ | ⟨h', -⟩) <;> simp [h] at h'
  · rintro r _ _ ((⟨h, -⟩ | ⟨h, -⟩) | ⟨h, -⟩ | ⟨h, -⟩) ⟨h', -⟩ <;> simp [h] at h'
  · rintro r _ _ (((⟨h, -⟩ | ⟨h, -⟩) | ⟨h, -⟩ | ⟨h, -⟩) | ⟨h, -⟩) ⟨h', -⟩ <;> simp [h] at h'
  · intro r g
    cases hstage : r.stage <;> simp [BreaksAt, hstage]

/-- Nothing is found exactly if the function can be bound. -/
theorem allFindings_eq_nil_iff : f.allFindings directive settings = [] ↔ f.Bindable directive settings := by
  rw [bindable_iff, (reports_allFindings f directive settings).eq_nil_iff]

/-- A function is bound exactly if nothing forbids it, and otherwise each broken rule is reported once. -/
theorem bind_reports_broken_rules (f : WorkFunction) (directive : Directive) (settings : Settings) :
    ((∃ b, f.bind directive settings = .ok b) ↔ f.Bindable directive settings) ∧
      (¬f.Bindable directive settings → ∃ found, found ≠ [] ∧ f.bind directive settings = .error found ∧
        Reports (f.Breaks directive settings) found) := by
  refine ⟨⟨?_, ?_⟩, ?_⟩
  · rintro ⟨b, hb⟩
    exact allFindings_eq_nil_iff.mp (bind_eq_ok_iff.mp hb).1
  · intro h
    exact bind_eq_ok_of_allFindings_eq_nil (allFindings_eq_nil_iff.mpr h)
  · intro h
    rw [← allFindings_eq_nil_iff] at h
    exact ⟨_, h, bind_eq_error_iff.mpr ⟨h, rfl⟩, reports_allFindings f directive settings⟩

/-- Two invalid labels may share an alias without a finding that says so, and a state may break two rules at once. -/
theorem bind_findings_not_by_condition :
    let labelled : WorkFunction :=
      ⟨"build", "", "", false, false, [⟨"dry-run", "a", "Flag", none⟩, ⟨"dry-run", "b", "Flag", none⟩], ""⟩
    let threaded : WorkFunction := ⟨"build", "", "", false, false, [⟨"state", "state", "Vec<T>", none⟩], "Vec<U>"⟩
    (∀ p ∈ labelled.boundParameters .callFunction, "dry-run" ∈ p.aliases {}) ∧
      labelled.bind { kind := .callFunction } {} = .error [.onParameter "a" (.invalidLabel "a" "dry-run"),
        .onParameter "b" (.invalidLabel "b" "dry-run")] ∧
      threaded.bind { kind := .commandAction } {} = .error [.onFunction (.missingNodePath "Vec<ChainNode<T>>"),
        .onFunction (.stateReturnMismatch "Vec<T>")] := by
  decide +kernel

end WorkFunction

end CommandBinding
