import CommandBinding.Proofs.DeclaredInputs
import CommandBinding.Proofs.ItemRuns
import Mathlib.Data.List.Induction

/-!
The keys of the attributes that give options. A parameter is declared by the row of all of its keys, whichever
attribute each of them stands in. Of several labels the last one counts, and so of several defaults. A key that asks
for no label is kept apart from the labels and counts against all of them, so the last key about the label decides
only if no such key stands in front of a label, or the label is the one that stands for none.
-/
namespace CommandBinding.Source

open CommandBinding.Source.Parser

/-- A key of an attribute that gives options, and what it says. -/
inductive OptionKey where
  | label (text : String)
  | positional
  | default (expression : Tree)

namespace OptionKey

def label? : OptionKey → Option String
  | label text => some text
  | positional => some positionalLabel
  | default _ => none

def default? : OptionKey → Option Tree
  | label _ => none
  | positional => none
  | default expression => some expression

/-- The label that the last key about the label asks for. -/
def lastLabel? (keys : List OptionKey) : Option String :=
  (keys.filterMap label?).getLast?

def lastDefault? (keys : List OptionKey) : Option Tree :=
  (keys.filterMap default?).getLast?

def addedTo (options : ParameterOptions) : OptionKey → ParameterOptions
  | label text => { options with label? := some text }
  | positional => { options with isPositional := true }
  | default expression => { options with default? := some expression }

/-- Whether a key stands in front of the tokens `behind`. A label is a word or a string, and a default what is read as
an expression there. -/
inductive Stands (rec : Recur) : OptionKey → List Token → List Token → Prop
  | word {isJoint : Bool} {word : String} {behind : List Token} :
    Stands rec (label (unraw word)) (.word "label" :: .mark '=' isJoint :: .word word :: behind) behind
  | string {isJoint : Bool} {literal text : String} {behind : List Token} : Quoted.value? literal = some text →
    Stands rec (label text) (.word "label" :: .mark '=' isJoint :: .literal literal :: behind) behind
  | positional {behind : List Token} : Stands rec positional (.word "positional" :: behind) behind
  | default {isJoint : Bool} {expression : Tree} {written behind : List Token} :
    rec.expression true ⟨written ++ behind, none⟩ = .ok (expression, ⟨behind, none⟩) →
    Stands rec (default expression) (.word "default" :: .mark '=' isJoint :: (written ++ behind)) behind

/-- Whether tokens are keys with commas between. A comma may stand behind the last key. -/
inductive Row (rec : Recur) : List OptionKey → List Token → Prop
  | nil : Row rec [] []
  | last {key : OptionKey} {tokens : List Token} : Stands rec key tokens [] → Row rec [key] tokens
  | more {key : OptionKey} {keys : List OptionKey} {isJoint : Bool} {tokens rest : List Token} :
    Stands rec key tokens (.mark ',' isJoint :: rest) → Row rec keys rest → Row rec (key :: keys) tokens

def AreIn (keys : List OptionKey) (a : Attribute) : Prop :=
  ∃ delimiter tokens, a.content = .arguments delimiter tokens ∧ Row sourceGrammar keys tokens

variable {rec : Recur} {key : OptionKey} {keys : List OptionKey} {tokens behind : List Token} {options : ParameterOptions}

theorem Stands.length_lt (h : Stands rec key tokens behind) : behind.length < tokens.length := by
  cases h <;> simp <;> omega

theorem Row.eq_nil (h : Row rec keys []) : keys = [] := by
  cases h with
  | nil => rfl
  | last hlast => exact absurd hlast.length_lt (by simp)
  | more hmore _ => exact absurd hmore.length_lt (by simp)

theorem run_argumentKey (word : String) {leftover? : Option Delimiter} (h : atOperator "::" behind = false) :
    argumentKey ⟨.word word :: behind, leftover?⟩ = .ok ([.word word], ⟨behind, leftover?⟩) := by
  have hroot : optionalOperator "::" ⟨.word word :: behind, leftover?⟩ = .ok ([], ⟨.word word :: behind, leftover?⟩) := rfl
  have hhead : anyToken ⟨.word word :: behind, leftover?⟩ = .ok ([.leaf (.word word)], ⟨behind, leftover?⟩) := rfl
  rw [argumentKey, run_bind hroot, run_bind (run_remaining _)]
  simp only [atAnyWord, Bool.not_true, Bool.false_eq_true, if_false]
  rw [run_bind hhead, run_bind (collectWhile_of_not h)]
  rfl

/-- A key is read as it stands. -/
theorem Stands.run_entry (h : Stands rec key tokens behind) (hend : atOperator "::" behind = false)
    (options : ParameterOptions) : ∃ path s, argumentKey ⟨tokens, none⟩ = .ok (path, s) ∧
      ParameterOptions.entry rec path options s = .ok (key.addedTo options, ⟨behind, none⟩) := by
  have hequals (isJoint : Bool) (rest : List Token) :
      operator "=" ⟨.mark '=' isJoint :: rest, none⟩ = .ok (Tree.operator "=", ⟨rest, none⟩) := rfl
  cases h with
  | @word isJoint word behind =>
    have hword : anyWord ⟨.word word :: behind, none⟩ = .ok (word, ⟨behind, none⟩) := rfl
    refine ⟨_, _, run_argumentKey "label" rfl, ?_⟩
    rw [ParameterOptions.entry, if_pos (by decide), run_bind (hequals isJoint _), run_bind (run_remaining _)]
    rfl
  | @string isJoint literal text behind hvalue =>
    refine ⟨_, _, run_argumentKey "label" rfl, ?_⟩
    have hat : atString (.literal literal :: behind) = true := by simp [atString, hvalue]
    have hstring : stringValue ⟨.literal literal :: behind, none⟩ = .ok (text, ⟨behind, none⟩) := by
      rw [stringValue, run_bind (run_remaining _)]
      simp only [hvalue]
      rfl
    rw [ParameterOptions.entry, if_pos (by decide), run_bind (hequals isJoint _), run_bind (run_remaining _)]
    simp only [hat, if_true]
    rw [run_bind hstring]
    rfl
  | positional =>
    refine ⟨_, _, run_argumentKey "positional" hend, ?_⟩
    rw [ParameterOptions.entry, if_neg (by decide), if_pos (by decide)]
    rfl
  | @default isJoint expression written behind hexpression =>
    refine ⟨_, _, run_argumentKey "default" rfl, ?_⟩
    rw [ParameterOptions.entry, if_neg (by decide), if_neg (by decide), if_pos (by decide), run_bind (hequals isJoint _),
      run_bind hexpression]
    rfl

def readStep (rec : Recur) (options : ParameterOptions) : Parser (ParameterOptions × Bool) := do
  let key ← argumentKey
  let options ← ParameterOptions.entry rec key options
  if (← remaining).isEmpty then return (options, false)
  let _ ← operator ","
  return (options, !(← remaining).isEmpty)

theorem Stands.readStep_last (h : Stands rec key tokens []) (options : ParameterOptions) :
    readStep rec options ⟨tokens, none⟩ = .ok ((key.addedTo options, false), ⟨[], none⟩) := by
  obtain ⟨path, s, hpath, hentry⟩ := h.run_entry rfl options
  rw [readStep, run_bind hpath, run_bind hentry, run_bind (run_remaining _)]
  rfl

theorem Stands.readStep_more {isJoint : Bool} {rest : List Token}
    (h : Stands rec key tokens (.mark ',' isJoint :: rest)) (options : ParameterOptions) :
    readStep rec options ⟨tokens, none⟩ = .ok ((key.addedTo options, !rest.isEmpty), ⟨rest, none⟩) := by
  have hcomma : operator "," ⟨.mark ',' isJoint :: rest, none⟩ = .ok (Tree.operator ",", ⟨rest, none⟩) := rfl
  obtain ⟨path, s, hpath, hentry⟩ := h.run_entry rfl options
  rw [readStep, run_bind hpath, run_bind hentry, run_bind (run_remaining _)]
  simp only [List.isEmpty_cons, Bool.false_eq_true, if_false]
  rw [run_bind hcomma, run_bind (run_remaining _)]
  rfl

/-- Each step reads one key, so a row of keys is read to its end before the bound is used up. -/
theorem Row.run_iterateFrom (h : Row rec keys tokens) (hne : tokens ≠ []) (options : ParameterOptions)
    {bound : List Token} (hbound : tokens.length ≤ bound.length) :
    iterateFrom (readStep rec) bound options ⟨tokens, none⟩ = .ok (keys.foldl addedTo options, ⟨[], none⟩) := by
  induction h generalizing options bound with
  | nil => exact absurd rfl hne
  | last hkey =>
    cases bound with
    | nil => simp at hbound; exact absurd hbound hne
    | cons _ bound =>
      rw [iterateFrom, run_bind (hkey.readStep_last options)]
      rfl
  | @more key keys isJoint tokens rest hkey hrow ih =>
    cases bound with
    | nil => simp at hbound; exact absurd hbound hne
    | cons _ bound =>
      rw [iterateFrom, run_bind (hkey.readStep_more options)]
      by_cases hrest : rest = []
      · subst hrest
        rw [hrow.eq_nil]
        rfl
      · have hlength : rest.length ≤ bound.length := by
          have := hkey.length_lt
          simp only [List.length_cons] at this hbound
          omega
        have hmore : (!rest.isEmpty) = true := by simpa using hrest
        simp only [hmore, if_true]
        exact ih hrest (key.addedTo options) hlength

theorem Row.run_keyedArguments (h : Row rec keys tokens) (options : ParameterOptions) :
    keyedArguments (ParameterOptions.entry rec) options ⟨tokens, none⟩ =
      .ok (keys.foldl addedTo options, ⟨[], none⟩) := by
  rw [keyedArguments, run_bind (run_remaining _)]
  by_cases hne : tokens = []
  · subst hne
    rw [h.eq_nil]
    rfl
  · have hsome : tokens.isEmpty = false := by simpa using hne
    simp only [hsome, Bool.false_eq_true, if_false]
    exact h.run_iterateFrom hne options (Nat.le_refl _)

/-- An attribute adds its keys, in their order, to what was said before. -/
theorem AreIn.after {a : Attribute} (h : AreIn keys a) (options : ParameterOptions) :
    options.after a = .ok (keys.foldl addedTo options) := by
  obtain ⟨delimiter, tokens, hcontent, hrow⟩ := h
  have hparse : parse (fun rec => keyedArguments (ParameterOptions.entry rec) options) tokens =
      .ok (keys.foldl addedTo options) := by
    rw [parse, parseAll, hrow.run_keyedArguments options]
    rfl
  rw [ParameterOptions.after, ParameterOptions.argumentsOf, hcontent]
  exact hparse

theorem foldlM_after {attributes : List Attribute} {groups : List (List OptionKey)}
    (h : List.Forall₂ AreIn groups attributes) (options : ParameterOptions) :
    attributes.foldlM ParameterOptions.after options = .ok (groups.flatten.foldl addedTo options) := by
  induction h generalizing options with
  | nil => rfl
  | @cons keys a groups attributes hkeys _ ih =>
    rw [List.foldlM_cons, hkeys.after, List.flatten_cons, List.foldl_append]
    exact ih (keys.foldl addedTo options)

/-! What a row of keys says. -/

def isPositional : OptionKey → Bool
  | label _ => false
  | positional => true
  | default _ => false

theorem isPositional_foldl (keys : List OptionKey) (options : ParameterOptions) :
    (keys.foldl addedTo options).isPositional = (options.isPositional || keys.any isPositional) := by
  induction keys generalizing options with
  | nil => simp
  | cons key keys ih => cases key <;> simp [ih, addedTo, isPositional]

theorem default?_foldl (keys : List OptionKey) (options : ParameterOptions) :
    (keys.foldl addedTo options).default? = (lastDefault? keys).or options.default? := by
  induction keys using List.reverseRecOn with
  | nil => rfl
  | append_singleton keys key ih =>
    rw [List.foldl_append, List.foldl_cons, List.foldl_nil]
    cases key with
    | default expression => simp [addedTo, lastDefault?, default?]
    | _ => simpa [addedTo, lastDefault?, default?] using ih

/-- Where every key about the label gives one, the last of them is kept. -/
theorem label?_foldl (h : keys.any isPositional = false) (options : ParameterOptions) :
    (keys.foldl addedTo options).label? = (lastLabel? keys).or options.label? := by
  induction keys using List.reverseRecOn with
  | nil => rfl
  | append_singleton keys key ih =>
    rw [List.any_append, Bool.or_eq_false_iff] at h
    rw [List.foldl_append, List.foldl_cons, List.foldl_nil]
    cases key with
    | label text => simp [addedTo, lastLabel?, label?]
    | positional => exact absurd h.2 (by decide)
    | default expression => simpa [addedTo, lastLabel?, label?] using ih h.1

theorem lastLabel?_ne_none (h : keys.any isPositional = true) : lastLabel? keys ≠ none := by
  obtain ⟨key, hkey, hpositional⟩ := List.any_eq_true.mp h
  cases key with
  | positional =>
    have hmem : positionalLabel ∈ keys.filterMap label? := List.mem_filterMap.mpr ⟨positional, hkey, rfl⟩
    rw [lastLabel?, Ne, List.getLast?_eq_none_iff]
    exact List.ne_nil_of_mem hmem
  | _ => cases hpositional

end OptionKey

namespace TypedInput

open OptionKey (AreIn lastLabel? lastDefault? isPositional addedTo)

/-- A parameter is declared by the row of its keys. -/
theorem declare_of_areIn {input : TypedInput} {name : Name} {groups : List (List OptionKey)}
    (hname : input.name? = some name)
    (hkeys : List.Forall₂ AreIn groups (input.attributes.filter (·.isNamed optionAttribute))) :
    input.declare = .ok (declared name input.type (groups.flatten.foldl addedTo {})) := by
  have hoptions : ParameterOptions.ofAttributes input.attributes = .ok (groups.flatten.foldl addedTo {}) :=
    OptionKey.foldlM_after hkeys {}
  rw [declare, hname, hoptions]

/-- The keys of a parameter, however they are spread over its attributes, declare it with the last default and with
the last label, unless a key asks for no label. Then it has none, and this is what the last key about the label asks
for only if that key, too, asks for none. -/
theorem declare_of_option_keys {input : TypedInput} {name : Name} {groups : List (List OptionKey)}
    (hname : input.name? = some name)
    (hkeys : List.Forall₂ AreIn groups (input.attributes.filter (·.isNamed optionAttribute))) :
    ∃ p, input.declare = .ok p ∧ p.name = name.plain ∧
      p.default? = (lastDefault? groups.flatten).map
        (fun expression => CodeText.tight (CodeText.tight (Tree.textOf [expression]))) ∧
      p.label = (if groups.flatten.any isPositional then positionalLabel
        else (lastLabel? groups.flatten).getD name.plain) ∧
      (p.label = (lastLabel? groups.flatten).getD name.plain ↔
        (groups.flatten.any isPositional = true → lastLabel? groups.flatten = some positionalLabel)) ∧
      ∀ (other : TypedInput) (groups' : List (List OptionKey)), other.name? = some name → other.type = input.type →
        List.Forall₂ AreIn groups' (other.attributes.filter (·.isNamed optionAttribute)) →
        groups'.flatten = groups.flatten → other.declare = .ok p := by
  have hdeclare := declare_of_areIn hname hkeys
  have hlabel : (declared name input.type (groups.flatten.foldl addedTo {})).label =
      if groups.flatten.any isPositional then positionalLabel else (lastLabel? groups.flatten).getD name.plain := by
    rw [declared_label, OptionKey.isPositional_foldl, Bool.false_or]
    by_cases hany : groups.flatten.any isPositional = true
    · rw [if_pos hany, if_pos hany]
    · rw [if_neg hany, if_neg hany, OptionKey.label?_foldl (by simpa using hany), Option.or_none]
  refine ⟨_, hdeclare, declared_name .., ?_, hlabel, ?_, ?_⟩
  · rw [declared_default?, OptionKey.default?_foldl, Option.or_none]
  · rw [hlabel]
    by_cases hany : groups.flatten.any isPositional = true
    · obtain ⟨text, htext⟩ := Option.ne_none_iff_exists'.mp (OptionKey.lastLabel?_ne_none hany)
      rw [if_pos hany, htext, Option.getD_some, Option.some.injEq]
      exact ⟨fun heq _ => heq.symm, fun heq => (heq hany).symm⟩
    · rw [if_neg hany]
      exact ⟨fun _ hpositional => absurd hpositional hany, fun _ => rfl⟩
  · intro other groups' hname' htype hkeys' hsame
    rw [declare_of_areIn hname' hkeys', htype, hsame]

/-- A parameter with a label behind the key that asks for none, and a default in an attribute of its own. -/
def labelledLate : TypedInput where
  attributes := [
    ⟨false, [.word "arg"], .arguments .parenthesis
      [.word "positional", .mark ',' false, .word "label", .mark '=' false, .word "x"]⟩,
    ⟨false, [.word "arg"], .arguments .bracket [.word "default", .mark '=' false, .literal "1"]⟩]
  pattern := [.word "a"]
  name? := some ⟨"a", by decide +kernel⟩
  type := [.word "u8"]

/-- The last key about the label asks for `x`, but the parameter has no label. -/
theorem declare_of_label_behind_positional : ∃ groups p,
    List.Forall₂ AreIn groups (labelledLate.attributes.filter (·.isNamed optionAttribute)) ∧
      lastLabel? groups.flatten = some "x" ∧ labelledLate.declare = .ok p ∧ p.label = "_" ∧ p.default? = some "1" := by
  have hlabel : OptionKey.Row sourceGrammar [.positional, .label (unraw "x")]
      [.word "positional", .mark ',' false, .word "label", .mark '=' false, .word "x"] :=
    .more .positional (.last .word)
  obtain ⟨expression, hexpression, htext⟩ : ∃ expression,
      sourceGrammar.expression true ⟨[.literal "1"] ++ [], none⟩ = .ok (expression, ⟨[], none⟩) ∧
        CodeText.tight (CodeText.tight (Tree.textOf [expression])) = "1" := by
    have hread : ((sourceGrammar.expression true ⟨[.literal "1"] ++ [], none⟩).toOption.map fun result =>
          (CodeText.tight (CodeText.tight (Tree.textOf [result.1])), result.2.tokens, result.2.leftover?)) =
        some ("1", [], none) := by decide +kernel
    obtain ⟨⟨expression, tokens, leftover?⟩, hrun, hresult⟩ := Option.map_eq_some_iff.mp hread
    obtain ⟨htext, rfl, rfl⟩ : _ ∧ tokens = [] ∧ leftover? = none := by simpa using hresult
    exact ⟨expression, eq_ok_of_toOption hrun, htext⟩
  have hdefault : OptionKey.Row sourceGrammar [.default expression] [.word "default", .mark '=' false, .literal "1"] :=
    .last (.default hexpression)
  have hunraw : unraw "x" = "x" := by decide +kernel
  have hkeys : List.Forall₂ AreIn [[.positional, .label "x"], [.default expression]]
      (labelledLate.attributes.filter (·.isNamed optionAttribute)) :=
    .cons ⟨_, _, rfl, hunraw ▸ hlabel⟩ (.cons ⟨_, _, rfl, hdefault⟩ .nil)
  obtain ⟨p, hp, -, hkept, hnone, -⟩ := declare_of_option_keys rfl hkeys
  refine ⟨_, p, hkeys, rfl, hp, hnone, hkept.trans ?_⟩
  exact congrArg some htext

end TypedInput

end CommandBinding.Source
