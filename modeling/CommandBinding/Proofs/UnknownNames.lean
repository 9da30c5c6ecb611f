import CommandBinding.Code
import CommandBinding.Proofs.BindingReports
import CommandBinding.Proofs.DeclaredInputs

/-!
Names that are reported as unknown. The words of the shadow groups are compared with the parameters that could be
declared. So a parameter of the signature whose options cannot be read is reported for its options, and where a group
names it, its name is reported as unknown as well; no other defect of a parameter has this effect.
-/
namespace CommandBinding

/-- The findings say of a word of the shadow groups that it names no parameter. -/
def ListsUnknown (found : List Finding) (word : String) : Prop :=
  ∃ finding ∈ found, ∃ names, finding.fault = .unknownShadowedNames names ∧ word ∈ names

variable {directive : Directive} {settings : Settings}

namespace WorkFunction

variable {f : WorkFunction} {word : String}

/-- The finding about unknown names comes from the shadow groups and lists all of their words that name no parameter. -/
theorem listsUnknown_allFindings_iff (hkind : directive.kind ≠ .commandAction) :
    ListsUnknown (f.allFindings directive settings) word ↔
      (∃ texts : List String, directive.shadowGroups = texts.map .literal ∧ ∃ text ∈ texts, word ∈ words text) ∧
        ∀ p ∈ f.parameters, p.name ≠ word := by
  have hbound : f.boundParameters directive.kind = f.parameters :=
    boundParameters_eq_self fun p _ hcommand => absurd hcommand hkind
  have hunknown (texts : List String) : word ∈ f.unknownNames directive texts ↔
      (∃ text ∈ texts, word ∈ words text) ∧ ∀ p ∈ f.parameters, p.name ≠ word := by
    rw [unknownNames, ShadowGroup.mem_unknownWords, hbound, List.mem_map, not_exists]
    simp only [not_and]
  have hreports := reports_allFindings f directive settings
  constructor
  · rintro ⟨finding, hfinding, names, hfault, hword⟩
    -- Of all rules that may be broken, only the one about the shadow groups has this fault.
    obtain ⟨rule, hbroken⟩ := hreports.mem_iff.mp hfinding
    cases hbroken with
    | @groupsUnknown texts hliteral _ =>
      obtain rfl := Fault.unknownShadowedNames.inj hfault
      obtain ⟨htext, hnone⟩ := (hunknown texts).mp hword
      exact ⟨⟨texts, hliteral, htext⟩, hnone⟩
    | state hstate => exact absurd hstate hkind
    | category _ hfault' =>
      cases hfault' <;> cases hfault
    | _ => cases hfault
  · rintro ⟨⟨texts, hliteral, htext⟩, hnone⟩
    have hword := (hunknown texts).mpr ⟨htext, hnone⟩
    exact ⟨_, hreports.mem_iff.mpr ⟨_, .groupsUnknown hliteral (List.ne_nil_of_mem hword)⟩, _, rfl, hword⟩

end WorkFunction

namespace Source

variable {word : String}

/-- What is wrong with an input is never that a name is unknown. -/
theorem Input.fault_of_declare {input : Input} {finding : Finding} (h : input.declare = .error finding)
    (names : List String) : finding.fault ≠ .unknownShadowedNames names := by
  cases input with
  | receiver attributes self =>
    obtain rfl := Except.error.inj h
    simp [Finding.onFunction]
  | typed typed =>
    simp only [declare, TypedInput.declare] at h
    split at h
    · obtain rfl := Except.error.inj h
      simp [Finding.onFunction]
    · split at h
      · cases h
      · obtain rfl := Except.error.inj h
        simp [Finding.onParameter]

namespace Signature

variable {s : Signature} {visibility : List Token}

/-- Binding a signature fails with what is wrong with its declaration and with the declared function. -/
theorem bind_eq_error_iff {found : List Finding} : s.bind visibility directive settings = .error found ↔
    (s.declare visibility).2 ++ (s.declare visibility).1.allFindings directive settings ≠ [] ∧
      (s.declare visibility).2 ++ (s.declare visibility).1.allFindings directive settings = found := by
  rw [bind]
  cases hbind : (s.declare visibility).1.bind directive settings with
  | error more =>
    obtain ⟨hne, rfl⟩ := WorkFunction.bind_eq_error_iff.mp hbind
    simp [hbind, hne]
  | ok binding =>
    have hnone := (WorkFunction.bind_eq_ok_iff.mp hbind).1
    simp [hbind, hnone, unlessFound_eq_error_iff]

theorem listsUnknown_iff : (∃ found, s.bind visibility directive settings = .error found ∧ ListsUnknown found word) ↔
    ListsUnknown ((s.declare visibility).1.allFindings directive settings) word := by
  constructor
  · rintro ⟨found, herror, finding, hfinding, names, hfault, hword⟩
    obtain ⟨-, rfl⟩ := bind_eq_error_iff.mp herror
    rcases List.mem_append.mp hfinding with hdeclared | hbound
    · obtain ⟨input, -, hinput⟩ := List.mem_map.mp (mem_errors.mp hdeclared)
      exact absurd hfault (Input.fault_of_declare hinput names)
    · exact ⟨finding, hbound, names, hfault, hword⟩
  · rintro ⟨finding, hfinding, hlists⟩
    have hmem : finding ∈ (s.declare visibility).2 ++ (s.declare visibility).1.allFindings directive settings :=
      List.mem_append_right _ hfinding
    exact ⟨_, bind_eq_error_iff.mpr ⟨List.ne_nil_of_mem hmem, rfl⟩, finding, hmem, hlists⟩

/-- A name is that of no declared parameter exactly if no input of that name has options that can be read. -/
theorem not_declared_iff : (∀ p ∈ (s.declare visibility).1.parameters, p.name ≠ word) ↔
    ∀ (input : TypedInput) (name : Name), .typed input ∈ s.inputs → input.name? = some name → name.plain = word →
      ∃ e, ParameterOptions.ofAttributes input.attributes = .error e := by
  have hmem (p : Parameter) : p ∈ (s.declare visibility).1.parameters ↔ ∃ input ∈ s.inputs, input.declare = .ok p :=
    mem_values.trans List.mem_map
  constructor
  · rintro hnone input name hinput hname rfl
    cases hoptions : ParameterOptions.ofAttributes input.attributes with
    | error e => exact ⟨e, rfl⟩
    | ok options =>
      have hdeclare := Input.declare_eq_ok_iff.mpr ⟨input, name, options, rfl, hname, hoptions, rfl⟩
      exact absurd (TypedInput.declared_name name input.type options) (hnone _ ((hmem _).mpr ⟨_, hinput, hdeclare⟩))
  · rintro hunread p hp hword
    obtain ⟨input, hinput, hdeclare⟩ := (hmem p).mp hp
    obtain ⟨typed, name, options, rfl, hname, hoptions, rfl⟩ := Input.declare_eq_ok_iff.mp hdeclare
    rw [TypedInput.declared_name] at hword
    obtain ⟨e, herror⟩ := hunread typed name hinput hname hword
    simp [hoptions] at herror

/-- The name of an input is reported as unknown exactly if a shadow group has it for a word and the options of no input
of that name can be read; this is then reported as well. -/
theorem bind_lists_unknown_iff (s : Signature) (visibility : List Token) {directive : Directive}
    (hkind : directive.kind ≠ .commandAction) (settings : Settings) {input : TypedInput} {name : Name}
    (hinput : .typed input ∈ s.inputs) (hname : input.name? = some name) :
    ((∃ found, s.bind visibility directive settings = .error found ∧ ListsUnknown found name.plain) ↔
      (∃ texts : List String, directive.shadowGroups = texts.map .literal ∧ ∃ text ∈ texts, name.plain ∈ words text) ∧
        ∀ (other : TypedInput) (otherName : Name), .typed other ∈ s.inputs → other.name? = some otherName →
          otherName.plain = name.plain → ∃ e, ParameterOptions.ofAttributes other.attributes = .error e) ∧
    ∀ found, s.bind visibility directive settings = .error found → ListsUnknown found name.plain →
      ∃ e, ParameterOptions.ofAttributes input.attributes = .error e ∧
        .onParameter name.plain (.invalidArgument e.message) ∈ found := by
  have hlists : (∃ found, s.bind visibility directive settings = .error found ∧ ListsUnknown found name.plain) ↔ _ :=
    listsUnknown_iff.trans (WorkFunction.listsUnknown_allFindings_iff hkind)
  rw [not_declared_iff] at hlists
  refine ⟨hlists, fun found herror hunknown => ?_⟩
  obtain ⟨e, hoptions⟩ := (hlists.mp ⟨found, herror, hunknown⟩).2 input name hinput hname rfl
  have hdeclare : (Input.typed input).declare = .error (.onParameter name.plain (.invalidArgument e.message)) := by
    rw [Input.declare, TypedInput.declare, hname, hoptions]
  obtain ⟨-, rfl⟩ := bind_eq_error_iff.mp herror
  exact ⟨e, hoptions, List.mem_append_left _ (mem_errors.mpr (List.mem_map.mpr ⟨_, hinput, hdeclare⟩))⟩

end Signature

def TypedInput.switch (name : Name) (option : String) : TypedInput where
  attributes := [⟨false, [.word "arg"], .arguments .parenthesis (code option)⟩]
  pattern := [.word name.text]
  name? := some name
  type := [.word "Flag"]

/-- A switch with an option that does not exist. -/
def TypedInput.verbose : TypedInput :=
  switch ⟨"verbose", by decide +kernel⟩ "lable = x"

def TypedInput.quiet : TypedInput :=
  switch ⟨"quiet", by decide +kernel⟩ "label = q"

def Signature.ofSwitches : Signature where
  isConst := false
  isAsync := false
  isUnsafe := false
  linkage := []
  name := ⟨"run", by decide +kernel⟩
  generics := []
  inputs := [.typed .verbose, .typed .quiet]
  endsInComma := false
  variadic := []
  output? := none
  bounds := []

/-- A group of both switches: the one with the wrong option is reported as unknown besides, and the other one is not. -/
theorem Signature.bind_lists_declared_switch :
    let directive : Directive := { kind := .callFunction, shadowGroups := [.literal "verbose quiet"] }
    ∃ found, ofSwitches.bind [] directive {} = .error found ∧ ListsUnknown found "verbose" ∧
      ¬ListsUnknown found "quiet" ∧ ∃ e : ParseError, .onParameter "verbose" (.invalidArgument e.message) ∈ found := by
  intro directive
  have hverbose : .typed .verbose ∈ ofSwitches.inputs := by simp [ofSwitches]
  have hquiet : .typed .quiet ∈ ofSwitches.inputs := by simp [ofSwitches]
  have hkind : directive.kind ≠ .commandAction := by decide
  obtain ⟨hlists, hreported⟩ := bind_lists_unknown_iff ofSwitches [] hkind {} hverbose rfl
  obtain ⟨hother, -⟩ := bind_lists_unknown_iff ofSwitches [] hkind {} hquiet rfl
  have hwrong : ∃ e, ParameterOptions.ofAttributes TypedInput.verbose.attributes = .error e := by
    have hnone : (ParameterOptions.ofAttributes TypedInput.verbose.attributes).toOption.isNone = true := by decide +kernel
    cases h : ParameterOptions.ofAttributes TypedInput.verbose.attributes with
    | error e => exact ⟨e, rfl⟩
    | ok options => simp [h, Except.toOption] at hnone
  have hright : ¬∃ e, ParameterOptions.ofAttributes TypedInput.quiet.attributes = .error e := by
    have hsome : (ParameterOptions.ofAttributes TypedInput.quiet.attributes).toOption.isSome = true := by decide +kernel
    rintro ⟨e, h⟩
    simp [h, Except.toOption] at hsome
  have hword : ∃ texts : List String, directive.shadowGroups = texts.map .literal ∧
      ∃ text ∈ texts, "verbose" ∈ words text :=
    ⟨["verbose quiet"], rfl, "verbose quiet", List.mem_cons_self .., by decide +kernel⟩
  have hsame : ∀ (other : TypedInput) (otherName : Name), .typed other ∈ ofSwitches.inputs →
      other.name? = some otherName → otherName.plain = "verbose" →
        ∃ e, ParameterOptions.ofAttributes other.attributes = .error e := by
    intro other otherName hmem hname hplain
    simp only [ofSwitches, List.mem_cons, Input.typed.injEq, List.not_mem_nil, or_false] at hmem
    rcases hmem with rfl | rfl
    · exact hwrong
    · obtain rfl := Option.some.inj hname
      exact absurd hplain (by decide +kernel)
  obtain ⟨found, herror, hunknown⟩ := hlists.mpr ⟨hword, hsame⟩
  obtain ⟨e, -, hargument⟩ := hreported found herror hunknown
  refine ⟨found, herror, hunknown, fun hlisted => hright ?_, e, hargument⟩
  exact (hother.mp ⟨found, herror, hlisted⟩).2 .quiet _ hquiet rfl rfl

end Source

end CommandBinding
