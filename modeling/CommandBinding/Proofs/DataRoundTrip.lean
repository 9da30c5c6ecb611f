import CommandBinding.Codec
import CommandBinding.Proofs.JsonReading

/-!
The data form of the binding model loses nothing. For each type, what its writer makes is read back by its reader, as a value
that JSON has, and the text of that value is read as the value.
-/
namespace CommandBinding

open Data

namespace Data

variable {α : Type} {read : Data → Option α} {write : α → Data}

/-- What is read off a value as JSON has it. No record in the value repeats a field. -/
structure Restores (read : Data → Option α) (d : Data) (a : α) : Prop where
  distinct : d.DistinctFields
  read : read d.plain = some a

/-- The JSON text of such a value gives back what it was written for. -/
theorem Restores.text {d : Data} {a : α} (h : Restores read d a) (level : Nat) :
    (Json.read? (Json.render level d)).bind read = some a := by
  rw [Json.read?_render level h.distinct, Option.bind_some, h.read]

theorem distinctInItems_map (h : ∀ a, Restores read (write a) a) (as : List α) : DistinctInItems (as.map write) := by
  induction as with
  | nil => trivial
  | cons a as ih => exact ⟨(h a).distinct, ih⟩

theorem mapM_plainItems_map (h : ∀ a, Restores read (write a) a) (as : List α) :
    (plainItems (as.map write)).mapM read = some as := by
  induction as with
  | nil => rfl
  | cons a as ih =>
    rw [List.map_cons, plainItems, List.mapM_cons, (h a).read, ih]
    rfl

/-! What readers and writers see of records and scalars -/

section Values

variable {fields : List (String × Data)} {name text : String} {value : Bool} {items : List Data}

@[simp]
theorem field_record : (record fields).field name = ((fields.find? (·.1 == name)).map (·.2)).getD null :=
  rfl

@[simp]
theorem hasField_record : (record fields).hasField name = fields.any (·.1 == name) :=
  rfl

@[simp]
theorem fieldOr_record {absent : α} : (record fields).fieldOr name read absent =
    if fields.any (·.1 == name) then read ((record fields).field name) else some absent :=
  rfl

@[simp]
theorem record?_record : (record fields).record? = some fields :=
  rfl

@[simp]
theorem string?_string : (string text).string? = some text :=
  rfl

@[simp]
theorem bool?_bool : (bool value).bool? = some value :=
  rfl

@[simp]
theorem list?_list : (list items).list? = some items :=
  rfl

@[simp]
theorem optional?_optional (text? : Option String) : (optional text?).optional? = some text? := by
  cases text? <;> rfl

@[simp]
theorem plain_string : (string text).plain = string text :=
  rfl

@[simp]
theorem plain_bool : (bool value).plain = bool value :=
  rfl

@[simp]
theorem plain_list : (list items).plain = list (plainItems items) :=
  rfl

@[simp]
theorem plain_record : (record fields).plain = record (plainFields fields) :=
  rfl

@[simp]
theorem plain_optional (text? : Option String) : (optional text?).plain = optional text? := by
  cases text? <;> rfl

@[simp]
theorem plainFields_nil : plainFields [] = [] :=
  rfl

@[simp]
theorem plainFields_cons {value : Data} :
    plainFields ((name, value) :: fields) = (name, value.plain) :: plainFields fields :=
  rfl

@[simp]
theorem distinctFields_string : (string text).DistinctFields :=
  trivial

@[simp]
theorem distinctFields_bool : (bool value).DistinctFields :=
  trivial

@[simp]
theorem distinctFields_optional (text? : Option String) : (optional text?).DistinctFields := by
  cases text? <;> trivial

@[simp]
theorem distinctFields_list : (list items).DistinctFields ↔ DistinctInItems items :=
  Iff.rfl

@[simp]
theorem distinctFields_record :
    (record fields).DistinctFields ↔ (fields.map (·.1)).Nodup ∧ DistinctInFields fields :=
  Iff.rfl

@[simp]
theorem distinctFields_variant {payload : Data} : (variant name payload).DistinctFields ↔ payload.DistinctFields :=
  Iff.rfl

@[simp]
theorem distinctInFields_nil : DistinctInFields [] :=
  trivial

@[simp]
theorem distinctInFields_cons {value : Data} :
    DistinctInFields ((name, value) :: fields) ↔ value.DistinctFields ∧ DistinctInFields fields :=
  Iff.rfl

end Values

theorem restores_string (text : String) : Restores string? (.string text) text :=
  ⟨trivial, rfl⟩

theorem restores_list (h : ∀ a, Restores read (write a) a) (as : List α) :
    Restores (fun d => d.list?.bind (·.mapM read)) (.list (as.map write)) as := by
  refine ⟨distinctInItems_map h as, ?_⟩
  rw [plain, list?, Option.bind_some, mapM_plainItems_map h]

theorem restores_strings (texts : List String) : Restores strings? (.strings texts) texts :=
  restores_list restores_string texts

end Data

theorem Parameter.restores (p : Parameter) : Restores Parameter.ofData? p.toData p := by
  constructor
  · simp [toData]
  · simp [toData, ofData?]

theorem WorkFunction.restores (f : WorkFunction) : Restores WorkFunction.ofData? f.toData f := by
  obtain ⟨name, generics, modifiers, isAsync, fallible, parameters, returnType⟩ := f
  constructor
  · have hparameters := distinctInItems_map Parameter.restores parameters
    by_cases hgenerics : generics = "" <;> by_cases hmodifiers : modifiers = "" <;>
      simp [toData, textField, hgenerics, hmodifiers, hparameters]
  · have hparameters := mapM_plainItems_map Parameter.restores parameters
    by_cases hgenerics : generics = "" <;> by_cases hmodifiers : modifiers = "" <;>
      simp [toData, ofData?, textField, hgenerics, hmodifiers, hparameters]

theorem BoundParameter.restores (p : BoundParameter) : Restores BoundParameter.ofData? p.toData p := by
  obtain ⟨name, label, category, default?⟩ := p
  constructor
  · cases category <;> simp [toData, Category.fields]
  · cases category <;> simp [toData, ofData?, Category.fields, Category.ofData?]

theorem AliasRow.restores (r : AliasRow) : Restores AliasRow.ofData? r.toData r := by
  constructor
  · simp [toData, Aliases.fields]
  · simp [toData, ofData?, Aliases.fields, Aliases.ofData?]

theorem AliasTable.restores (table : AliasTable) : Restores AliasTable.ofData? (AliasTable.toData table) table :=
  restores_list AliasRow.restores table

theorem GroupArgument.restores (a : GroupArgument) : Restores GroupArgument.ofData? a.toData a := by
  constructor
  · cases a <;> simp [toData]
  · cases a <;> simp [toData, ofData?]

theorem DirectiveKind.restores (k : DirectiveKind) : Restores DirectiveKind.ofData? k.toData k := by
  cases k <;> exact ⟨trivial, rfl⟩

theorem Directive.restores (d : Directive) : Restores Directive.ofData? d.toData d := by
  have hkind := DirectiveKind.restores d.kind
  constructor
  · have hgroups := distinctInItems_map GroupArgument.restores d.shadowGroups
    simp [toData, hkind.distinct, hgroups]
  · have hgroups := mapM_plainItems_map GroupArgument.restores d.shadowGroups
    simp [toData, ofData?, groupsOfData?, hkind.read, hgroups]

theorem StateThread.restores (t : StateThread) : Restores StateThread.ofData? t.toData t := by
  constructor
  · simp [toData]
  · simp [toData, ofData?]

theorem MetaFlagDefault.restores (m : MetaFlagDefault) : Restores MetaFlagDefault.ofData? m.toData m := by
  constructor
  · simp [toData]
  · simp [toData, ofData?]

theorem RuntimeTables.restores (t : RuntimeTables) : Restores RuntimeTables.ofData? t.toData t := by
  have hlabels := AliasTable.restores t.labels
  have hgroups := restores_strings t.shadowGroups
  constructor
  · have hflags := distinctInItems_map MetaFlagDefault.restores t.metaFlags
    simp [toData, hflags, hgroups.distinct, hlabels.distinct]
  · have hflags := mapM_plainItems_map MetaFlagDefault.restores t.metaFlags
    simp [toData, ofData?, hflags, hgroups.read, hlabels.read]

theorem Binding.restores_state (state : Option StateThread) : Restores stateOfData? (stateToData state) state := by
  cases state with
  | none => exact ⟨trivial, rfl⟩
  | some t =>
    have ht := StateThread.restores t
    refine ⟨ht.distinct, ?_⟩
    have hread : stateOfData? t.toData.plain = (StateThread.ofData? t.toData.plain).map some := rfl
    rw [stateToData, hread, ht.read]
    rfl

theorem Binding.restores (b : Binding) : Restores Binding.ofData? b.toData b := by
  have hkind := DirectiveKind.restores b.kind
  have hfunction := WorkFunction.restores b.function
  have htables := RuntimeTables.restores b.tables
  have hstate := restores_state b.state
  constructor
  · have hparameters := distinctInItems_map BoundParameter.restores b.parameters
    simp [toData, hkind.distinct, hfunction.distinct, hparameters, htables.distinct, hstate.distinct]
  · have hparameters := mapM_plainItems_map BoundParameter.restores b.parameters
    simp [toData, ofData?, hkind.read, hfunction.read, hparameters, htables.read, hstate.read]

theorem Fault.restores (e : Fault) : Restores Fault.ofData? e.toData e := by
  cases e with
  | duplicateAlias name ps =>
    have hps := restores_strings ps
    constructor
    · simp [toData, hps.distinct]
    · have hread : ofData? (toData (duplicateAlias name ps)).plain =
          (strings ps).plain.strings?.bind fun ps => some (duplicateAlias name ps) := rfl
      rw [hread, hps.read]
      rfl
  | unknownShadowedNames names =>
    have hnames := restores_strings names
    constructor
    · simp [toData, hnames.distinct]
    · have hread : ofData? (toData (unknownShadowedNames names)).plain =
          (strings names).plain.strings?.bind fun names => some (unknownShadowedNames names) := rfl
      rw [hread, hnames.read]
      rfl
  | _ =>
    refine ⟨?_, rfl⟩
    simp [toData]

theorem Finding.restores (f : Finding) : Restores Finding.ofData? f.toData f := by
  obtain ⟨fault, target⟩ := f
  have hfault := Fault.restores fault
  constructor
  · cases target <;> simp [toData, fields, targetFields, hfault.distinct]
  · cases target <;> simp [toData, fields, targetFields, ofData?, targetOfData?, hfault.read]

theorem BoundParameter.hasField_type (p : BoundParameter) :
    p.toData.plain.hasField "type" = p.category.valueType?.isSome := by
  obtain ⟨name, label, category, default?⟩ := p
  cases category <;> rfl

theorem WorkFunction.hasField_generics (f : WorkFunction) : f.toData.plain.hasField "generics" = (f.generics != "") := by
  by_cases hgenerics : f.generics = "" <;> by_cases hmodifiers : f.modifiers = "" <;>
    simp [toData, textField, hgenerics, hmodifiers]

theorem WorkFunction.hasField_modifiers (f : WorkFunction) :
    f.toData.plain.hasField "modifiers" = (f.modifiers != "") := by
  by_cases hgenerics : f.generics = "" <;> by_cases hmodifiers : f.modifiers = "" <;>
    simp [toData, textField, hgenerics, hmodifiers]

/-- A function of which no more is given than what has to be. -/
theorem WorkFunction.ofData?_required (name : String) (parameters : List Parameter) :
    WorkFunction.ofData? (record [("name", .string name), ("parameters", .list (parameters.map Parameter.toData))]).plain =
      some ⟨name, "", "", false, false, parameters, ""⟩ := by
  have hparameters := mapM_plainItems_map Parameter.restores parameters
  simp [ofData?, hparameters]

/-- Bindings, directives and findings are read back from their JSON as they were, whatever their texts and lists hold. No
object in it has a key twice, also where the fields of a category, of aliases or of a target are written into the object that
holds them. Only categories with a value have a type, and texts of a function that are empty are left out; what is left out
has its usual value. -/
theorem json_round_trip :
    (∀ b : Binding, Restores Binding.ofData? b.toData b ∧
      ∀ level, (Json.read? (Json.render level b.toData)).bind Binding.ofData? = some b) ∧
    (∀ d : Directive, Restores Directive.ofData? d.toData d ∧
      ∀ level, (Json.read? (Json.render level d.toData)).bind Directive.ofData? = some d) ∧
    (∀ f : Finding, Restores Finding.ofData? f.toData f ∧
      ∀ level, (Json.read? (Json.render level f.toData)).bind Finding.ofData? = some f) ∧
    (∀ p : BoundParameter, p.toData.plain.hasField "type" = p.category.valueType?.isSome) ∧
    (∀ f : WorkFunction, f.toData.plain.hasField "generics" = (f.generics != "") ∧
      f.toData.plain.hasField "modifiers" = (f.modifiers != "")) ∧
    ∀ (name : String) (parameters : List Parameter),
      WorkFunction.ofData? (record [("name", .string name), ("parameters", .list (parameters.map Parameter.toData))]).plain =
        some ⟨name, "", "", false, false, parameters, ""⟩ :=
  ⟨fun b => ⟨b.restores, b.restores.text⟩, fun d => ⟨d.restores, d.restores.text⟩, fun f => ⟨f.restores, f.restores.text⟩,
    BoundParameter.hasField_type, fun f => ⟨f.hasField_generics, f.hasField_modifiers⟩, WorkFunction.ofData?_required⟩

end CommandBinding
