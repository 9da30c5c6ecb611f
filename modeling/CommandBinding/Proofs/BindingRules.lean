import CommandBinding.Binding
import CommandBinding.Proofs.StateWiring

/-!
The rules of binding. `Bindable` lists what a function, a directive and settings have to satisfy, and `Breaks` says
which rule is broken and how this is reported. Aliases that an invalid label would give are not looked at.
-/
namespace CommandBinding

variable {f : WorkFunction} {p : Parameter} {kind : DirectiveKind} {directive : Directive} {settings : Settings}

namespace Parameter

def category (p : Parameter) (settings : Settings) : Category :=
  Category.ofType p.typeText settings

def MeetsCategory (p : Parameter) (settings : Settings) : Prop :=
  match p.category settings with
  | .flag => p.default? ≠ some "true" ∧ p.label ≠ "_" ∧ p.label ≠ ""
  | .metaFlag => p.default? ≠ none ∧ p.label ≠ "_" ∧ p.label ≠ ""
  | .optional _ => p.default? = none ∨ p.default? = some "None"
  | .array _ | .variadic _ => p.default? = none ∨ p.default? = some "vec![]" ∨
      p.default? = some "Vec::new()" ∨ p.default? = some "Default::default()"
  | .value _ => True

/-- Whether the parameter is given on the command line. -/
def IsBound (p : Parameter) (kind : DirectiveKind) : Prop :=
  kind = .commandAction → p.name ≠ "node_path" ∧ p.name ≠ "state"

instance (p : Parameter) (kind : DirectiveKind) : Decidable (p.IsBound kind) :=
  inferInstanceAs (Decidable (_ → _))

def aliases (p : Parameter) (settings : Settings) : List String :=
  (Aliases.ofLabel p.label settings.labelSeparator).present

end Parameter

inductive CategoryRule where
  | default
  | label
deriving DecidableEq

/-- The rules. A rule about a parameter is told by the place of the parameter. -/
inductive Rule where
  | functionName
  | mainReturnType
  | mainGenerics
  | category (place : Nat) (rule : CategoryRule)
  | label (place : Nat)
  | sharedAlias (text : String)
  | shadowGroups
  | state (fault : Fault)
deriving DecidableEq

inductive Stage where
  | usage
  | categories
  | labels
  | aliases
  | groups
  | state
deriving DecidableEq

def Rule.stage : Rule → Stage
  | functionName | mainReturnType | mainGenerics => .usage
  | category _ _ => .categories
  | label _ => .labels
  | sharedAlias _ => .aliases
  | shadowGroups => .groups
  | state _ => .state

/-- What is wrong with the default or the label of a parameter. -/
inductive Parameter.Breaks (p : Parameter) (settings : Settings) : CategoryRule → Fault → Prop
  | flagDefault : p.category settings = .flag → p.default? = some "true" →
      Breaks p settings .default (.flagDefaultsToTrue p.name)
  | flagLabel : p.category settings = .flag → p.label = "_" ∨ p.label = "" →
      Breaks p settings .label (.unlabeledFlag p.name settings.flagType)
  | metaFlagDefault : p.category settings = .metaFlag → p.default? = none →
      Breaks p settings .default (.missingMetaFlagDefault p.name)
  | metaFlagLabel : p.category settings = .metaFlag → p.label = "_" ∨ p.label = "" →
      Breaks p settings .label (.unlabeledFlag p.name settings.metaFlagType)
  | optionalDefault {type text : String} : p.category settings = .optional type → p.default? = some text →
      text ≠ "None" → Breaks p settings .default (.optionalWithDefault p.name)
  | arrayDefault {type text : String} : p.category settings = .array type → p.default? = some text →
      text ∉ emptySequenceTexts → Breaks p settings .default (.nonEmptySequenceDefault p.name "arrays")
  | variadicDefault {type text : String} : p.category settings = .variadic type → p.default? = some text →
      text ∉ emptySequenceTexts → Breaks p settings .default (.nonEmptySequenceDefault p.name "variadics")

namespace WorkFunction

def boundParameters (f : WorkFunction) (kind : DirectiveKind) : List Parameter :=
  f.parameters.filter (·.IsBound kind)

/-- The names of the command-line parameters with a valid label that gives this alias. -/
def claimants (f : WorkFunction) (kind : DirectiveKind) (settings : Settings) (text : String) : List String :=
  ((f.boundParameters kind).filter fun p => isValidLabel p.label && (p.aliases settings).contains text).map (·.name)

/-- The words of the shadow groups that name no command-line parameter. -/
def unknownNames (f : WorkFunction) (directive : Directive) (texts : List String) : List String :=
  ShadowGroup.unknownWords texts ((f.boundParameters directive.kind).map (·.name))

/-- All that binding asks for. -/
structure Bindable (f : WorkFunction) (directive : Directive) (settings : Settings) : Prop where
  functionName : ¬(4 < f.name.utf8ByteSize ∧ f.name.startsWith "__" ∧ f.name.endsWith "__")
  main : directive.kind = .mainFunction → f.returnType = "" ∧ f.generics = ""
  categories : ∀ p ∈ f.parameters, p.MeetsCategory settings
  labels : ∀ p ∈ f.boundParameters directive.kind, ∀ c ∈ p.label.toList, c.isAlphanum ∨ c = '_'
  aliases : (f.boundParameters directive.kind).Pairwise fun p q => ∀ text ∈ p.aliases settings, text ∉ q.aliases settings
  groups : ∀ argument ∈ directive.shadowGroups, ∃ text, argument = .literal text ∧
    ∀ word ∈ words text, ∃ p ∈ f.boundParameters directive.kind, p.name = word
  state : directive.kind = .commandAction → ∃ t, StateThread.resolve f settings = .ok t

/-- A rule is broken, and this is the finding that says so. -/
inductive Breaks (f : WorkFunction) (directive : Directive) (settings : Settings) : Rule → Finding → Prop
  | functionName : 4 < f.name.utf8ByteSize → f.name.startsWith "__" → f.name.endsWith "__" →
      Breaks f directive settings .functionName (.onFunction .reservedFunctionName)
  | mainReturnType : directive.kind = .mainFunction → f.returnType ≠ "" →
      Breaks f directive settings .mainReturnType (.onFunction .mainFunctionReturnsValue)
  | mainGenerics : directive.kind = .mainFunction → f.generics ≠ "" →
      Breaks f directive settings .mainGenerics (.onFunction .genericMainFunction)
  | category {place : Nat} {p : Parameter} {rule : CategoryRule} {fault : Fault} : f.parameters[place]? = some p →
      p.Breaks settings rule fault → Breaks f directive settings (.category place rule) (.onParameter p.name fault)
  | label {place : Nat} {p : Parameter} : (f.boundParameters directive.kind)[place]? = some p →
      ¬(∀ c ∈ p.label.toList, c.isAlphanum ∨ c = '_') →
      Breaks f directive settings (.label place) (.onParameter p.name (.invalidLabel p.name p.label))
  | sharedAlias {text : String} : 2 ≤ (f.claimants directive.kind settings text).length →
      Breaks f directive settings (.sharedAlias text)
        (.onFunction (.duplicateAlias text (f.claimants directive.kind settings text)))
  | groupsNotLiteral {text : String} : .expression text ∈ directive.shadowGroups →
      Breaks f directive settings .shadowGroups (.onDirective .shadowGroupsNotLiteral)
  | groupsUnknown {texts : List String} : directive.shadowGroups = texts.map .literal →
      f.unknownNames directive texts ≠ [] →
      Breaks f directive settings .shadowGroups (.onDirective (.unknownShadowedNames (f.unknownNames directive texts)))
  | state {found : List Finding} {finding : Finding} : directive.kind = .commandAction →
      StateThread.resolve f settings = .error found → finding ∈ found →
      Breaks f directive settings (.state finding.fault) finding

end WorkFunction

/-! The two ways to say a rule agree. -/

/-- A parameter meets its category exactly if it breaks neither rule. -/
theorem Parameter.meetsCategory_iff : p.MeetsCategory settings ↔ ∀ rule fault, ¬p.Breaks settings rule fault := by
  constructor
  · intro h rule fault hbroken
    cases hbroken <;> simp_all [MeetsCategory, emptySequenceTexts]
  · intro h
    unfold MeetsCategory
    split
    · next hcat =>
      refine ⟨fun hd => h _ _ (.flagDefault hcat hd), fun hl => h _ _ (.flagLabel hcat (.inl hl)), fun hl => ?_⟩
      exact h _ _ (.flagLabel hcat (.inr hl))
    · next hcat =>
      refine ⟨fun hd => h _ _ (.metaFlagDefault hcat hd), fun hl => h _ _ (.metaFlagLabel hcat (.inl hl)), fun hl => ?_⟩
      exact h _ _ (.metaFlagLabel hcat (.inr hl))
    · next hcat =>
      cases hd : p.default? with
      | none => exact Or.inl rfl
      | some text =>
        by_cases htext : text = "None"
        · exact Or.inr (by rw [htext])
        · exact absurd (.optionalDefault hcat hd htext) (h _ _)
    · next hcat =>
      cases hd : p.default? with
      | none => exact Or.inl rfl
      | some text =>
        by_cases htext : text ∈ emptySequenceTexts
        · simpa [emptySequenceTexts] using htext
        · exact absurd (.arrayDefault hcat hd htext) (h _ _)
    · next hcat =>
      cases hd : p.default? with
      | none => exact Or.inl rfl
      | some text =>
        by_cases htext : text ∈ emptySequenceTexts
        · simpa [emptySequenceTexts] using htext
        · exact absurd (.variadicDefault hcat hd htext) (h _ _)
    · trivial

theorem isValidLabel_iff {label : String} :
    isValidLabel label = true ↔ ∀ c ∈ label.toList, c.isAlphanum ∨ c = '_' := by
  simp [isValidLabel, CodeText.continuesName]

/-- No text belongs to two members of a list exactly if no text belongs to more than one place of it. -/
theorem pairwise_disjoint_iff {α : Type} {texts : α → List String} {members : List α} :
    members.Pairwise (fun a b => ∀ text ∈ texts a, text ∉ texts b) ↔
      ∀ text, (members.filter fun a => (texts a).contains text).length ≤ 1 := by
  induction members with
  | nil => simp
  | cons a members ih =>
    rw [List.pairwise_cons, ih]
    constructor
    · rintro ⟨ha, hrest⟩ text
      by_cases htext : text ∈ texts a
      · have hnone : ∀ b ∈ members, text ∉ texts b := fun b hb => ha b hb text htext
        simpa [htext] using hnone
      · simpa [htext] using hrest text
    · intro h
      refine ⟨fun b hb text ha htext => ?_, fun text => ?_⟩
      · have hmem : b ∈ members.filter fun b => (texts b).contains text := by simp [hb, htext]
        have hpos := List.length_pos_of_mem hmem
        have hle := h text
        simp only [List.filter_cons, List.contains_iff_mem, ha, ↓reduceIte, List.length_cons] at hle
        omega
      · have hle := h text
        rw [List.filter_cons] at hle
        split at hle
        · rw [List.length_cons] at hle
          omega
        · exact hle

/-- Either every argument is a literal, or some argument is not. -/
theorem ShadowGroup.literals_or_expression (arguments : List GroupArgument) :
    (∃ texts : List String, arguments = texts.map .literal) ∨ ∃ text, .expression text ∈ arguments := by
  induction arguments with
  | nil => exact Or.inl ⟨[], rfl⟩
  | cons argument rest ih =>
    cases argument with
    | expression text => exact Or.inr ⟨text, by simp⟩
    | literal text =>
      rcases ih with ⟨texts, rfl⟩ | ⟨other, hmem⟩
      · exact Or.inl ⟨text :: texts, rfl⟩
      · exact Or.inr ⟨other, by simp [hmem]⟩

namespace WorkFunction

theorem isBound_iff (settings : Settings) :
    p.IsBound kind ↔ ¬(kind.threadsState = true ∧ (p.bound settings).isChainWiring = true) := by
  cases kind <;> simp [Parameter.IsBound, DirectiveKind.threadsState, BoundParameter.isChainWiring, Parameter.bound,
    nodePathName, stateName]

theorem boundParameters_eq_self
    (h : ∀ p ∈ f.parameters, kind = .commandAction → p.name ≠ "node_path" ∧ p.name ≠ "state") :
    f.boundParameters kind = f.parameters :=
  List.filter_eq_self.mpr fun p hp => decide_eq_true (h p hp)

/-- The command-line parameters are the bound ones with their categories. -/
theorem commandLineParameters_eq_map :
    f.commandLineParameters kind settings = (f.boundParameters kind).map (·.bound settings) := by
  rw [commandLineParameters, boundParameters, List.filter_map]
  congr 1
  apply List.filter_congr
  intro p _
  simp [isBound_iff settings]

/-- Where all labels are valid, everyone whose label gives an alias claims it. -/
theorem claimants_of_valid {text : String}
    (h : ∀ p ∈ f.boundParameters kind, ∀ c ∈ p.label.toList, c.isAlphanum ∨ c = '_') :
    f.claimants kind settings text =
      ((f.boundParameters kind).filter fun p => (p.aliases settings).contains text).map (·.name) := by
  rw [claimants]
  congr 1
  apply List.filter_congr
  intro p hp
  simp [isValidLabel_iff.mpr (h p hp)]

theorem not_breaks_of_bindable (h : f.Bindable directive settings) {rule : Rule} {finding : Finding}
    (hbroken : f.Breaks directive settings rule finding) : False := by
  cases hbroken with
  | functionName hsize hstart hend => exact h.functionName ⟨hsize, hstart, hend⟩
  | mainReturnType hkind hreturn => exact hreturn (h.main hkind).1
  | mainGenerics hkind hgenerics => exact hgenerics (h.main hkind).2
  | category hp hfault => exact Parameter.meetsCategory_iff.mp (h.categories _ (List.mem_of_getElem? hp)) _ _ hfault
  | label hp hlabel => exact hlabel (h.labels _ (List.mem_of_getElem? hp))
  | @sharedAlias text hclaimants =>
    rw [claimants_of_valid h.labels, List.length_map] at hclaimants
    have hle := pairwise_disjoint_iff.mp h.aliases text
    omega
  | groupsNotLiteral hmem =>
    obtain ⟨_, htext, -⟩ := h.groups _ hmem
    cases htext
  | groupsUnknown hliteral hunknown =>
    obtain ⟨word, hword⟩ := List.exists_mem_of_ne_nil _ hunknown
    obtain ⟨⟨text, htext, hword⟩, hnone⟩ := ShadowGroup.mem_unknownWords.mp hword
    obtain ⟨_, heq, hwords⟩ := h.groups (.literal text) (by simp [hliteral, htext])
    obtain rfl := GroupArgument.literal.inj heq
    obtain ⟨p, hp, rfl⟩ := hwords word hword
    exact hnone (List.mem_map_of_mem hp)
  | state hkind herror hfinding =>
    obtain ⟨t, ht⟩ := h.state hkind
    simp [ht] at herror

theorem bindable_of_not_breaks (h : ∀ rule finding, ¬f.Breaks directive settings rule finding) :
    f.Bindable directive settings := by
  have hlabels : ∀ p ∈ f.boundParameters directive.kind, ∀ c ∈ p.label.toList, c.isAlphanum ∨ c = '_' := by
    intro p hp
    obtain ⟨place, hplace⟩ := List.getElem?_of_mem hp
    by_contra hlabel
    exact h _ _ (.label hplace hlabel)
  refine ⟨?_, ?_, ?_, hlabels, ?_, ?_, ?_⟩
  · rintro ⟨hsize, hstart, hend⟩
    exact h _ _ (.functionName hsize hstart hend)
  · intro hkind
    refine ⟨?_, ?_⟩
    · by_contra hreturn
      exact h _ _ (.mainReturnType hkind hreturn)
    · by_contra hgenerics
      exact h _ _ (.mainGenerics hkind hgenerics)
  · intro p hp
    obtain ⟨place, hplace⟩ := List.getElem?_of_mem hp
    exact Parameter.meetsCategory_iff.mpr fun rule fault hfault => h _ _ (.category hplace hfault)
  · rw [pairwise_disjoint_iff]
    intro text
    by_contra hclaimants
    refine h (.sharedAlias text) _ (.sharedAlias ?_)
    rw [claimants_of_valid hlabels, List.length_map]
    omega
  · rcases ShadowGroup.literals_or_expression directive.shadowGroups with ⟨texts, hliteral⟩ | ⟨text, hmem⟩
    · intro argument hargument
      rw [hliteral] at hargument
      obtain ⟨text, htext, rfl⟩ := List.mem_map.mp hargument
      refine ⟨text, rfl, fun word hword => ?_⟩
      by_contra hnone
      refine h _ _ (.groupsUnknown hliteral (List.ne_nil_of_mem (a := word) ?_))
      exact ShadowGroup.mem_unknownWords.mpr ⟨⟨text, htext, hword⟩, by simpa using hnone⟩
    · exact absurd (.groupsNotLiteral hmem) (h _ _)
  · intro hkind
    cases hresolve : StateThread.resolve f settings with
    | ok t => exact ⟨t, rfl⟩
    | error found =>
      obtain ⟨finding, hfinding⟩ := List.exists_mem_of_ne_nil _ (StateThread.nodup_of_resolve_eq_error hresolve).1
      exact absurd (.state hkind hresolve hfinding) (h _ _)

/-- A directive and settings are what a function can be bound with exactly if no rule is broken. -/
theorem bindable_iff : f.Bindable directive settings ↔ ∀ rule finding, ¬f.Breaks directive settings rule finding :=
  ⟨fun h _ _ hbroken => not_breaks_of_bindable h hbroken, bindable_of_not_breaks⟩

end WorkFunction

end CommandBinding
