import CommandBinding.Proofs.ExpandedFunctions
import CommandBinding.Report

/-!
What the report on a function tells about its expansion. The report is the binding of the same function, so a function
that is not bound is not expanded either. The binding keeps the runtime path, defaults and types as texts, and only
generation parses them; a function that is reported as bound is expanded exactly if these texts are code.
-/
namespace CommandBinding

open Source

namespace Source

/-- Whether an attribute has those arguments in brackets, or stands alone and has none. -/
def Attribute.HasArguments (a : Attribute) (arguments : List Token) : Prop :=
  (a.content = .nothing ∧ arguments = []) ∨ ∃ delimiter, a.content = .arguments delimiter arguments

def FunctionItem.HasOnly (f : FunctionItem) (kind : DirectiveKind) (arguments : List Token) : Prop :=
  ∃ before a after, f.attributes = before ++ a :: after ∧ directiveKind? a = some kind ∧ a.HasArguments arguments ∧
    ∀ other ∈ before ++ after, directiveKind? other = none

def Tree.function? : Tree → Option FunctionItem
  | leaf _ => none
  | group _ _ => none
  | node _ _ => none
  | function item _ => some item
  | written _ _ => none
  | definition _ _ _ => none

/-- Whether a function stands in trees, however far down. -/
inductive FunctionItem.StandsIn (f : FunctionItem) : Trees → Prop
  | here {tree : Tree} {trees : Trees} : tree ∈ trees → tree.function? = some f → StandsIn f trees
  | inside {tree : Tree} {trees : Trees} : tree ∈ trees → StandsIn f tree.children → StandsIn f trees

theorem directiveOfAttribute_of_hasArguments {kind : DirectiveKind} {a : Attribute} {arguments : List Token}
    (h : a.HasArguments arguments) : directiveOfAttribute kind a = directiveOfArguments kind arguments := by
  rcases h with ⟨hcontent, rfl⟩ | ⟨delimiter, hcontent⟩
  · rw [directiveOfAttribute, hcontent, directiveOfArguments_nil]
  · rw [directiveOfAttribute, hcontent]

end Source

namespace Report

variable {settings : Settings} {f : FunctionItem} {tree : Tree} {trees : Trees} {kind : DirectiveKind}
  {arguments : List Token}

theorem ofTree_isInfix (h : tree ∈ trees) : ofTree settings tree <:+: ofTrees settings trees := by
  induction trees with
  | nil => cases h
  | cons first rest ih =>
    rw [ofTrees]
    rcases List.mem_cons.mp h with rfl | hrest
    · exact (List.prefix_append _ _).isInfix
    · exact (ih hrest).trans (List.suffix_append _ _).isInfix

/-- A tree is reported on with all that is below it. -/
theorem ofTrees_children_isInfix : ofTrees settings tree.children <:+: ofTree settings tree := by
  cases tree with
  | leaf token => exact List.nil_infix
  | group delimiter inner => exact List.infix_rfl
  | node kind children => exact List.infix_rfl
  | written tokens inside => exact List.infix_rfl
  | function item inside => exact (List.suffix_append _ _).isInfix
  | definition name attributes children => exact (List.suffix_append _ _).isInfix

theorem ofFunction_isInfix_ofTree (h : tree.function? = some f) : ofFunction settings f <:+: ofTree settings tree := by
  cases tree with
  | function item inside =>
    obtain rfl : item = f := Option.some.inj h
    exact (List.prefix_append _ _).isInfix
  | _ => cases h

/-- The reports on a function are among those on the trees that it stands in, one behind the other. -/
theorem ofFunction_isInfix (h : f.StandsIn trees) : ofFunction settings f <:+: ofTrees settings trees := by
  induction h with
  | here hmem hfunction => exact (ofFunction_isInfix_ofTree hfunction).trans (ofTree_isInfix hmem)
  | inside hmem _ ih => exact ih.trans (ofTrees_children_isInfix.trans (ofTree_isInfix hmem))

def outcomeOf (f : FunctionItem) (settings : Settings) (kind : DirectiveKind) (arguments : List Token) :
    Except (List Finding) Binding :=
  match directiveOfArguments kind arguments with
  | .ok directive => f.bind directive settings
  | .error e => .error [.onDirective (.invalidDirective e.message)]

/-- A function with one directive has one report. -/
theorem ofFunction_of_hasOnly (h : f.HasOnly kind arguments) :
    ofFunction settings f = [⟨f.signature.name.text, kind, outcomeOf f settings kind arguments⟩] := by
  obtain ⟨before, a, after, hattributes, hkind, harguments, hothers⟩ := h
  -- No other attribute gives a report, so the one on the directive is left.
  have hnone : ∀ other ∈ before ++ after,
      ofAttribute? f.signature.name.text (bindFunction f settings) other = none := by
    intro other hother
    rw [ofAttribute?, hothers other hother, Option.map_none]
  have hown : bindFunction f settings kind a = outcomeOf f settings kind arguments := by
    have hreads : directiveOfAttribute kind a = directiveOfArguments kind arguments :=
      directiveOfAttribute_of_hasArguments harguments
    cases hdirective : directiveOfArguments kind arguments with
    | ok directive => simp only [bindFunction, outcomeOf, hreads, hdirective]
    | error e => simp only [bindFunction, outcomeOf, hreads, hdirective]
  have hbefore := List.filterMap_eq_nil_iff.mpr fun other hother => hnone other (List.mem_append_left after hother)
  have hafter := List.filterMap_eq_nil_iff.mpr fun other hother => hnone other (List.mem_append_right before hother)
  rw [ofFunction, hattributes, List.filterMap_append, List.filterMap_cons, ofAttribute?, hkind, hbefore, hafter]
  simp only [Option.map_some, hown, List.nil_append]

theorem outcomeOf_eq_ok_iff {b : Binding} : outcomeOf f settings kind arguments = .ok b ↔
    ∃ directive, directiveOfArguments kind arguments = .ok directive ∧ f.bind directive settings = .ok b := by
  unfold outcomeOf
  cases directiveOfArguments kind arguments <;> simp

end Report

namespace Expansion

variable {f : FunctionItem} {kind : DirectiveKind} {arguments : List Token}

/-- A function is expanded exactly if it is bound and the texts of its binding are code. -/
theorem exists_ofFunction_eq_expanded_iff :
    (∃ g peers, ofFunction kind arguments f = .expanded g peers) ↔
      ∃ directive b, directiveOfArguments kind arguments = .ok directive ∧ f.bind directive {} = .ok b ∧
        b.IsCode directive := by
  constructor
  · rintro ⟨g, peers, h⟩
    obtain ⟨-, directive, b, hexpands⟩ := ofFunction_eq_expanded_iff.mp h
    have hcode := (Peer.exists_peersOf_iff (FunctionItem.isNamed_of_bind hexpands.binds)).mp
      ⟨peers, hexpands.generates⟩
    exact ⟨directive, b, hexpands.reads, hexpands.binds, hcode⟩
  · rintro ⟨directive, b, hreads, hbinds, hcode⟩
    obtain ⟨peers, hgenerates⟩ :=
      (Peer.exists_peersOf_iff (f := f.withoutOptions) (FunctionItem.isNamed_of_bind hbinds)).mpr hcode
    exact ⟨_, peers, ofFunction_eq_expanded_iff.mpr ⟨rfl, directive, b, hreads, hbinds, hgenerates⟩⟩

/-- The attributes of a function have no part in its expansion, other than that they are written back. -/
theorem exists_ofFunction_withAttributes_iff {attributes : List Attribute} :
    (∃ g peers, ofFunction kind arguments { f with attributes } = .expanded g peers) ↔
      ∃ g peers, ofFunction kind arguments f = .expanded g peers := by
  simp only [exists_ofFunction_eq_expanded_iff]
  exact Iff.rfl

/-- A function with one directive is reported on once, and its directive is expanded exactly if the report is a binding
whose texts are code. -/
theorem expanded_iff_reported_as_code {text : String} {trees : Trees} {item : List Token} {attributes : List Attribute}
    (hfile : parseFile text = .ok trees) (hstands : f.StandsIn trees) (hdirective : f.HasOnly kind arguments)
    (hitem : parseFunction item = .ok { f with attributes }) :
    ∃ reports r, Report.ofSource text {} = .ok reports ∧ Report.ofFunction {} f = [r] ∧ [r] <:+: reports ∧
      r.function = f.signature.name.text ∧ r.directive = kind ∧
      ((∃ g peers, ofItem kind arguments item = .expanded g peers) ↔
        ∃ b directive, r.outcome = .ok b ∧ directiveOfArguments kind arguments = .ok directive ∧
          b.IsCode directive) := by
  have hreport : Report.ofFunction {} f = [⟨f.signature.name.text, kind, Report.outcomeOf f {} kind arguments⟩] :=
    Report.ofFunction_of_hasOnly hdirective
  have hsource : Report.ofSource text {} = .ok (Report.ofTrees {} trees) := by
    rw [Report.ofSource, hfile]
    rfl
  refine ⟨_, _, hsource, hreport, hreport ▸ Report.ofFunction_isInfix hstands, rfl, rfl, ?_⟩
  have hitem : ofItem kind arguments item = ofFunction kind arguments { f with attributes } := by
    rw [ofItem, hitem]
  rw [hitem, exists_ofFunction_withAttributes_iff, exists_ofFunction_eq_expanded_iff]
  constructor
  · rintro ⟨directive, b, hreads, hbinds, hcode⟩
    exact ⟨b, directive, Report.outcomeOf_eq_ok_iff.mpr ⟨directive, hreads, hbinds⟩, hreads, hcode⟩
  · rintro ⟨b, directive, houtcome, hreads, hcode⟩
    obtain ⟨directive', hreads', hbinds⟩ := Report.outcomeOf_eq_ok_iff.mp houtcome
    obtain rfl := Except.ok.inj (hreads.symm.trans hreads')
    exact ⟨directive, b, hreads, hbinds, hcode⟩

/-- A function under a directive whose runtime path is none. -/
def misdirected : FunctionItem :=
  plainFunction
    [⟨false, [.word "call_function"], .arguments .parenthesis (code "runtime =" ++ [.literal "\"a b\""])⟩] []

/-- The report on the function is a binding, but the directive is not expanded. -/
theorem misdirected_reported_and_not_expanded : ∃ trees reports r b,
    parseFile "#[call_function(runtime = \"a b\")] fn f() \x7b\x7d" = .ok trees ∧ misdirected.StandsIn trees ∧
      misdirected.HasOnly .callFunction (code "runtime =" ++ [.literal "\"a b\""]) ∧
      Report.ofSource "#[call_function(runtime = \"a b\")] fn f() \x7b\x7d" {} = .ok reports ∧ [r] <:+: reports ∧
      r.outcome = .ok b ∧
      ¬∃ g peers, ofItem .callFunction (code "runtime =" ++ [.literal "\"a b\""])
        (code "fn f" ++ inParentheses [] ++ inBraces []) = .expanded g peers := by
  have hparsed : ((parseFile "#[call_function(runtime = \"a b\")] fn f() \x7b\x7d").toOption.bind fun trees =>
      trees.head?.bind Tree.function?) = some misdirected := by decide +kernel
  obtain ⟨trees, hfile, htrees⟩ := Option.bind_eq_some_iff.mp hparsed
  have hfile := eq_ok_of_toOption hfile
  obtain ⟨tree, htree, hfunction⟩ := Option.bind_eq_some_iff.mp htrees
  have hstands : misdirected.StandsIn trees := .here (List.mem_of_mem_head? htree) hfunction
  have hdirective : misdirected.HasOnly .callFunction (code "runtime =" ++ [.literal "\"a b\""]) :=
    ⟨[], _, [], rfl, by decide +kernel, Or.inr ⟨.parenthesis, rfl⟩, by simp⟩
  have hitem : parseFunction (code "fn f" ++ inParentheses [] ++ inBraces []) =
      .ok { misdirected with attributes := [] } := eq_ok_of_toOption (by decide +kernel)
  obtain ⟨reports, r, hreports, hown, hinfix, -, -, hiff⟩ :=
    expanded_iff_reported_as_code hfile hstands hdirective hitem
  have houtcome : (Report.ofFunction {} misdirected).all (·.outcome.isOk) = true := by decide +kernel
  rw [hown] at houtcome
  obtain ⟨b, hb⟩ : ∃ b, r.outcome = .ok b := by
    cases h : r.outcome with
    | ok b => exact ⟨b, rfl⟩
    | error found => simp [h, Except.isOk, Except.toBool] at houtcome
  refine ⟨trees, reports, r, b, hfile, hstands, hdirective, hreports, hinfix, hb, fun hexpanded => ?_⟩
  obtain ⟨b, directive, -, hreads, hcode⟩ := hiff.mp hexpanded
  have hdirective : directiveOfArguments .callFunction (code "runtime =" ++ [.literal "\"a b\""]) =
      .ok { kind := .callFunction, runtime? := some "a b" } := eq_ok_of_toOption (by decide +kernel)
  obtain rfl := Except.ok.inj (hreads.symm.trans hdirective)
  obtain ⟨path, hpath⟩ := hcode.runtime
  have hnone : (parsePath "a b").toOption.isSome = false := by decide +kernel
  have hpath : parsePath "a b" = .ok path := hpath
  rw [hpath] at hnone
  cases hnone

end Expansion

end CommandBinding
