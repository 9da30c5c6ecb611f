import CommandBinding.Proofs.Steps
import CommandBinding.Source.Declaration

/-!
Functions all of whose inputs can be declared. Each input is then a name with a type, and it gives one parameter of that
name. What the options of an input say is its label and its default, so without them the parameter is labelled by its
name and has no default, and nothing else about the declared function changes.
-/
namespace CommandBinding

/-- The parameter with its own name for a label and without a default. -/
def Parameter.bare (p : Parameter) : Parameter :=
  ⟨p.name, p.name, p.typeText, none⟩

def WorkFunction.bare (f : WorkFunction) : WorkFunction :=
  { f with parameters := f.parameters.map Parameter.bare }

namespace Source

variable {ε α : Type} {results : List (Except ε α)} {directive : Directive} {settings : Settings} {b : Binding}

theorem mem_values {value : α} : value ∈ values results ↔ .ok value ∈ results := by
  simp only [values, List.mem_filterMap]
  constructor
  · rintro ⟨_ | found, hmem, h⟩
    · cases h
    · exact Option.some.inj h ▸ hmem
  · exact fun hmem => ⟨_, hmem, rfl⟩

theorem mem_errors {e : ε} : e ∈ errors results ↔ .error e ∈ results := by
  simp only [errors, List.mem_filterMap]
  constructor
  · rintro ⟨found | _, hmem, h⟩
    · exact Option.some.inj h ▸ hmem
    · cases h
  · exact fun hmem => ⟨_, hmem, rfl⟩

theorem values_map_ok (xs : List α) : values (xs.map (Except.ok (ε := ε))) = xs := by
  induction xs with
  | nil => rfl
  | cons x xs ih =>
    have hcons : values ((x :: xs).map (Except.ok (ε := ε))) = x :: values (xs.map (Except.ok (ε := ε))) := by
      simp [values]
    rw [hcons, ih]

theorem errors_map_ok (xs : List α) : errors (xs.map (Except.ok (ε := ε))) = [] := by
  induction xs with
  | nil => rfl
  | cons x xs ih =>
    have hcons : errors ((x :: xs).map (Except.ok (ε := ε))) = errors (xs.map (Except.ok (ε := ε))) := by
      simp [errors]
    rw [hcons, ih]

/-- Results without errors are their values. -/
theorem eq_map_values_of_errors (h : errors results = []) : results = (values results).map .ok := by
  induction results with
  | nil => rfl
  | cons result results ih =>
    cases result with
    | error e => simp [errors] at h
    | ok value =>
      have hrest : errors results = [] := by simpa [errors] using h
      have hvalues : values (.ok value :: results) = value :: values results := by simp [values]
      rw [hvalues, List.map_cons]
      exact congrArg _ (ih hrest)

/-- The name of an input that is a name with a type. -/
def Input.name? : Input → Option Name
  | receiver _ _ => none
  | typed input => input.name?

theorem TypedInput.declared_name (name : Name) (type : List Token) (options : ParameterOptions) :
    (declared name type options).name = name.plain := by
  unfold declared
  cases options.label? <;> cases options.defaultText? <;> cases options.isPositional <;> rfl

theorem TypedInput.declared_typeText (name : Name) (type : List Token) (options : ParameterOptions) :
    (declared name type options).typeText = CodeText.tight (tightText type) := by
  unfold declared
  cases options.label? <;> cases options.defaultText? <;> cases options.isPositional <;> rfl

theorem TypedInput.declared_label (name : Name) (type : List Token) (options : ParameterOptions) :
    (declared name type options).label =
      if options.isPositional then positionalLabel else options.label?.getD name.plain := by
  unfold declared
  cases options.label? <;> cases options.defaultText? <;> cases options.isPositional <;> rfl

/-- The kept text of a default. -/
theorem TypedInput.declared_default? (name : Name) (type : List Token) (options : ParameterOptions) :
    (declared name type options).default? =
      options.default?.map fun expression => CodeText.tight (CodeText.tight (Tree.textOf [expression])) := by
  unfold declared ParameterOptions.defaultText?
  cases options.label? <;> cases options.default? <;> cases options.isPositional <;> rfl

/-- An input that is declared is a name with a type and options that can be read. -/
theorem Input.declare_eq_ok_iff {input : Input} {p : Parameter} : input.declare = .ok p ↔
    ∃ (typed : TypedInput) (name : Name) (options : ParameterOptions), input = .typed typed ∧ typed.name? = some name ∧
      ParameterOptions.ofAttributes typed.attributes = .ok options ∧ TypedInput.declared name typed.type options = p := by
  cases input with
  | receiver attributes self => simp [declare]
  | typed typed =>
    simp only [declare, TypedInput.declare]
    cases hname : typed.name? with
    | none => simp [hname]
    | some name =>
      cases hoptions : ParameterOptions.ofAttributes typed.attributes with
      | error e => simp [hoptions]
      | ok options => simp [hname, hoptions]

/-- Attributes that give no options leave all of them open. -/
theorem ofAttributes_filter_not (attributes : List Attribute) :
    ParameterOptions.ofAttributes (attributes.filter (!·.isNamed optionAttribute)) = .ok {} := by
  have hnone : (attributes.filter (!·.isNamed optionAttribute)).filter (·.isNamed optionAttribute) = [] := by
    rw [List.filter_filter, List.filter_eq_nil_iff]
    simp
  rw [ParameterOptions.ofAttributes, hnone]
  rfl

theorem Input.declare_withoutOptions {input : Input} {p : Parameter} (h : input.declare = .ok p) :
    input.withoutOptions.declare = .ok p.bare := by
  obtain ⟨typed, name, options, rfl, hname, -, rfl⟩ := declare_eq_ok_iff.mp h
  have hbare : (TypedInput.declared name typed.type options).bare = TypedInput.declared name typed.type {} := by
    rw [Parameter.bare, TypedInput.declared_name, TypedInput.declared_typeText]
    rfl
  rw [hbare]
  exact declare_eq_ok_iff.mpr ⟨_, name, {}, rfl, hname, ofAttributes_filter_not typed.attributes, rfl⟩

theorem Input.name?_of_declare {input : Input} {p : Parameter} (h : input.declare = .ok p) :
    ∃ name, input.name? = some name ∧ p.name = name.plain := by
  obtain ⟨typed, name, options, rfl, hname, -, rfl⟩ := declare_eq_ok_iff.mp h
  exact ⟨name, hname, TypedInput.declared_name name typed.type options⟩

abbrev Input.Declare (inputs : List Input) (ps : List Parameter) : Prop :=
  List.Forall₂ (fun input p => input.declare = .ok p) inputs ps

theorem Input.exists_names {inputs : List Input} {ps : List Parameter} (h : Input.Declare inputs ps) :
    ∃ names : List Name, inputs.map Input.name? = names.map some ∧ ps.map (·.name) = names.map Name.plain := by
  induction h with
  | nil => exact ⟨[], rfl, rfl⟩
  | cons hinput _ ih =>
    obtain ⟨name, hname, hplain⟩ := name?_of_declare hinput
    obtain ⟨names, hnames, hplains⟩ := ih
    exact ⟨name :: names, by simp [hname, hnames], by simp [hplain, hplains]⟩

theorem Input.exists_declare_of_mem {inputs : List Input} {ps : List Parameter} (h : Input.Declare inputs ps) :
    ∀ input ∈ inputs, ∃ p, input.declare = .ok p := by
  induction h with
  | nil => simp
  | cons hinput _ ih => exact List.forall_mem_cons.mpr ⟨⟨_, hinput⟩, ih⟩

theorem Input.declare_withoutOptions_all {inputs : List Input} {ps : List Parameter} (h : Input.Declare inputs ps) :
    (inputs.map Input.withoutOptions).map Input.declare = (ps.map Parameter.bare).map .ok := by
  induction h with
  | nil => rfl
  | cons hinput _ ih => simp only [List.map_cons, declare_withoutOptions hinput, ih]

namespace FunctionItem

variable {f : FunctionItem}

theorem bind_of_ok (h : f.declare.1.bind directive settings = .ok b) :
    f.bind directive settings = unlessFound f.declare.2 b := by
  have hbind : f.bind directive settings = f.signature.bind f.visibility directive settings := rfl
  rw [hbind, Signature.bind]
  rw [declare] at h
  simp only [h]
  rfl

theorem bind_of_error {more : List Finding} (h : f.declare.1.bind directive settings = .error more) :
    f.bind directive settings = .error (f.declare.2 ++ more) := by
  have hbind : f.bind directive settings = f.signature.bind f.visibility directive settings := rfl
  rw [hbind, Signature.bind]
  rw [declare] at h
  simp only [h]
  rfl

/-- A function is bound exactly if all of its inputs are declared and the declared function is bound. -/
theorem bind_eq_ok_iff : f.bind directive settings = .ok b ↔
    f.declare.2 = [] ∧ f.declare.1.bind directive settings = .ok b := by
  cases h : f.declare.1.bind directive settings with
  | error more => simp [bind_of_error h]
  | ok binding => simp [bind_of_ok h, unlessFound_eq_ok_iff]

/-- The parameters of a declared function stand for its inputs, in their order. -/
theorem inputs_declare (h : f.declare.2 = []) : Input.Declare f.signature.inputs f.declare.1.parameters := by
  have hmap : f.signature.inputs.map Input.declare = f.declare.1.parameters.map .ok := eq_map_values_of_errors h
  exact forall₂_eq_ok_iff.mpr hmap

/-- Without options the same function is declared with its parameters bare. -/
theorem declare_withoutOptions (h : f.declare.2 = []) : f.withoutOptions.declare = (f.declare.1.bare, []) := by
  have hinputs := Input.declare_withoutOptions_all (inputs_declare h)
  have hdeclare : f.withoutOptions.declare = ({ f.signature.declaredHead f.visibility with
      parameters := values ((f.signature.inputs.map Input.withoutOptions).map Input.declare) },
      errors ((f.signature.inputs.map Input.withoutOptions).map Input.declare)) := rfl
  rw [hdeclare, hinputs, values_map_ok, errors_map_ok]
  rfl

end FunctionItem

end Source

end CommandBinding
