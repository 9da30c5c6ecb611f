import CommandBinding.Proofs.ItemRuns
import CommandBinding.Proofs.ReportedItems

/-!
Reports do not depend on what stands around. Items may stand in a row with others, in a module, in the body of a function, or
anywhere else in the trees of a file: the reports on them are the same, in the same order, and they stand between the reports
on what encloses them or stands before them, and the reports on what stands behind them.
-/
namespace CommandBinding

open Source

/-- One step from trees to what they stand in. -/
inductive Surrounding where
  /-- A row, with other trees before and behind. -/
  | row (before behind : Trees)
  | node (kind : Kind)
  | group (delimiter : Delimiter)
  | written (tokens : List Token)
  | definition (name : String) (attributes : List Attribute)
  /-- The statements of a function; `front` are the trees inside all that stands in front of them. -/
  | body (f : FunctionItem) (front : Trees)

namespace Surrounding

def around : Surrounding → Trees → Trees
  | row before behind, trees => before ++ trees ++ behind
  | node kind, trees => [.node kind trees]
  | group delimiter, trees => [.group delimiter trees]
  | written tokens, trees => [.written tokens trees]
  | definition name attributes, trees => [.definition name attributes trees]
  | body f front, trees => [.function { f with body := Tree.tokensOf trees } (front ++ [Tree.part trees])]

/-- The trees with all that they stand in, which is given from the outside to the inside. -/
def fill (places : List Surrounding) (trees : Trees) : Trees :=
  places.foldr around trees

def module (front : Trees) : List Surrounding :=
  [node .item, row front [], group .brace]

def reportsBefore (settings : Settings) : Surrounding → List Report
  | row before _ => Report.ofTrees settings before
  | node _ | group _ | written _ => []
  | definition name attributes => Report.ofDefinition name attributes
  | body f front => Report.ofFunction settings f ++ Report.ofTrees settings front

def reportsBehind (settings : Settings) : Surrounding → List Report
  | row _ behind => Report.ofTrees settings behind
  | node _ | group _ | written _ | definition _ _ | body _ _ => []

end Surrounding

namespace Report

open Surrounding

variable {trees more : Trees}

theorem ofTrees_append (settings : Settings) (trees more : Trees) :
    ofTrees settings (trees ++ more) = ofTrees settings trees ++ ofTrees settings more := by
  induction trees with
  | nil => rfl
  | cons tree trees ih => rw [List.cons_append, ofTrees, ofTrees, ih, List.append_assoc]

theorem ofTrees_singleton (settings : Settings) (tree : Tree) : ofTrees settings [tree] = ofTree settings tree := by
  rw [ofTrees, ofTrees, List.append_nil]

/-- Directives on a function are about its head. -/
theorem ofFunction_body (settings : Settings) (f : FunctionItem) (body : List Token) :
    ofFunction settings { f with body } = ofFunction settings f :=
  rfl

/-- Where trees stand adds reports before theirs and behind them, and changes none. -/
theorem ofTrees_around (settings : Settings) (place : Surrounding) (trees : Trees) :
    ofTrees settings (place.around trees) =
      place.reportsBefore settings ++ ofTrees settings trees ++ place.reportsBehind settings := by
  cases place with
  | row before behind => rw [around, ofTrees_append, ofTrees_append, reportsBefore, reportsBehind]
  | body f front =>
    have hpart : ofTree settings (Tree.part trees) = ofTrees settings trees := rfl
    rw [around, ofTrees_singleton, ofTree, ofFunction_body, ofTrees_append, ofTrees_singleton, hpart, reportsBefore,
      reportsBehind, List.append_nil, List.append_assoc]
  | definition name attributes =>
    rw [around, ofTrees_singleton, ofTree, reportsBefore, reportsBehind, List.append_nil]
  | node _ | group _ | written _ =>
    rw [around, ofTrees_singleton, ofTree, reportsBefore, reportsBehind, List.append_nil, List.nil_append]

theorem ofTrees_fill (settings : Settings) (places : List Surrounding) (trees : Trees) :
    ofTrees settings (fill places trees) = places.flatMap (reportsBefore settings) ++ ofTrees settings trees ++
      places.reverse.flatMap (reportsBehind settings) := by
  induction places with
  | nil => rw [fill, List.foldr_nil, List.flatMap_nil, List.nil_append, List.reverse_nil, List.flatMap_nil, List.append_nil]
  | cons place places ih =>
    have hfill : fill (place :: places) trees = place.around (fill places trees) := rfl
    have hbehind : (place :: places).reverse.flatMap (reportsBehind settings) =
        places.reverse.flatMap (reportsBehind settings) ++ place.reportsBehind settings := by
      rw [List.reverse_cons, List.flatMap_append, List.flatMap_singleton]
    rw [hfill, ofTrees_around, ih, List.flatMap_cons, hbehind]
    simp only [List.append_assoc]

theorem ofTrees_module (settings : Settings) (front items : Trees) :
    ofTrees settings (fill (module front) items) = ofTrees settings front ++ ofTrees settings items := by
  rw [ofTrees_fill]
  simp [module, reportsBefore, reportsBehind, ofTrees]

theorem ofTrees_body (settings : Settings) (f : FunctionItem) (front items : Trees) :
    ofTrees settings (fill [body f front] items) =
      ofFunction settings f ++ (ofTrees settings front ++ ofTrees settings items) := by
  rw [ofTrees_fill]
  simp [reportsBefore, reportsBehind]

theorem ofSource_eq {text : String} {settings : Settings} (h : parseFile text = .ok trees) :
    ofSource text settings = .ok (ofTrees settings trees) := by
  rw [ofSource, h]
  rfl

/-- Whatever items stand in, the reports on them are the same: those on two runs of items stand one after the other, those on
the items of a module are those on the items, and those on the items in the body of a function stand behind those on the
function. These are the trees that such items are read as; in a body, a macro call that defines no name is no item. -/
theorem independent (settings : Settings) :
    (∀ (text textA textB : String) (a b : Trees), parseFile textA = .ok a → parseFile textB = .ok b →
      parseFile text = .ok (a ++ b) → ∃ reportsA reportsB, ofSource textA settings = .ok reportsA ∧
        ofSource textB settings = .ok reportsB ∧ ofSource text settings = .ok (reportsA ++ reportsB)) ∧
    (∀ (places : List Surrounding) (items : Trees), ofTrees settings (fill places items) =
      places.flatMap (reportsBefore settings) ++ ofTrees settings items ++
        places.reverse.flatMap (reportsBehind settings)) ∧
    (∀ front items : Trees, ofTrees settings (fill (module front) items) =
      ofTrees settings front ++ ofTrees settings items) ∧
    (∀ (f : FunctionItem) (front items : Trees), ofTrees settings (fill [body f front] items) =
      ofFunction settings f ++ (ofTrees settings front ++ ofTrees settings items)) ∧
    (∀ (depth : Nat) (begins : Reading → Prop) (r s r' : Reading) (a b : Trees),
      ReadsItems (grammar depth) begins r a s → ReadsItems (grammar depth) begins s b r' → r'.tokens = [] →
        (grammar depth).file r = .ok (a ++ b, r')) ∧
    ∀ (depth : Nat) (begins : Reading → Prop) (inner rest : List Token) (l l' : Option Delimiter) (items : Trees),
      ReadsItems (grammar depth) begins ⟨inner, l⟩ items ⟨[], l'⟩ → ∀ (r : Reading) (front : Trees),
        ((grammar depth).ReadsModuleHead r front ⟨.group .brace inner :: rest, l⟩ →
          ∃ tree, (grammar depth).item r = .ok (tree, ⟨rest, l'⟩) ∧ [tree] = fill (module front) items) ∧
        ∀ f : FunctionItem, begins = (grammar depth).BeginsItem →
          (grammar (depth + 1)).ReadsFunctionHead r f front ⟨.group .brace inner :: rest, l⟩ →
            ∃ tree, (grammar (depth + 1)).item r = .ok (tree, ⟨rest, l'⟩) ∧ [tree] = fill [body f front] items := by
  refine ⟨fun text textA textB a b hA hB h => ?_, ofTrees_fill settings, ofTrees_module settings, ofTrees_body settings,
    fun depth begins r s r' a b ha hb hend => (ha.append hb).file hend,
    fun depth begins inner rest l l' items hitems r front => ⟨fun hhead => ?_, ?_⟩⟩
  · refine ⟨_, _, ofSource_eq hA, ofSource_eq hB, ?_⟩
    rw [ofSource_eq h, ofTrees_append]
  · refine ⟨_, hitems.module hhead, ?_⟩
    simp [fill, module, around]
  · rintro f rfl hhead
    exact ⟨_, hitems.function hhead, rfl⟩

/-- The tokens of `#[call_function] fn f() {}`. -/
def markedFunction : List Token :=
  [.mark '#' false, .group .bracket [.word "call_function"], .word "fn", .word "f", .group .parenthesis [], .group .brace []]

/-- The tokens of a function with a directive that is read as none, and with that function in its body. -/
def failingFunction : List Token :=
  [.mark '#' false, .group .bracket [.word "call_function", .group .parenthesis [.word "x"]], .word "fn", .word "g",
    .group .parenthesis [], .group .brace markedFunction]

/-- The function has the same report in a module and in the function that fails. -/
theorem independent_of_marked_function : ∃ (tree inModule inBody : Tree) (report failed : Report),
    ReadsItems (grammar 5) (grammar 5).BeginsItem ⟨markedFunction, none⟩ [tree] ⟨[], none⟩ ∧
    (grammar 5).item ⟨[.word "mod", .word "m", .group .brace markedFunction], none⟩ = .ok (inModule, ⟨[], none⟩) ∧
    (grammar 6).item ⟨failingFunction, none⟩ = .ok (inBody, ⟨[], none⟩) ∧ ofTrees {} [tree] = [report] ∧
    report.findings = [] ∧ failed.findings ≠ [] ∧ ofTrees {} [inModule] = [report] ∧
    ofTrees {} [inBody] = [failed, report] := by
  obtain ⟨-, -, hmodule, hbody, -, hread⟩ := independent {}
  have hitem : ∃ tree, grammar 5 .item ⟨markedFunction, none⟩ = .ok (tree, ⟨[], none⟩) ∧
      ∃ report, ofTrees {} [tree] = [report] ∧ report.findings = [] := ⟨_, rfl, _, rfl, rfl⟩
  obtain ⟨tree, hitem, report, hreport, hnone⟩ := hitem
  have hitems : ReadsItems (grammar 5) (grammar 5).BeginsItem ⟨markedFunction, none⟩ [tree] ⟨[], none⟩ :=
    .cons ⟨_, _, .none, rfl, rfl, .inr ⟨rfl, rfl⟩⟩ hitem (by decide) (.nil _)
  have hhead : ∃ f front,
      (grammar 6).ReadsFunctionHead ⟨failingFunction, none⟩ f front ⟨[.group .brace markedFunction], none⟩ ∧
      ofTrees {} front = [] ∧ ∃ failed, ofFunction {} f = [failed] ∧ failed.findings ≠ [] :=
    ⟨⟨_, _, _, _, []⟩, _, ⟨_, _, _, _, _, rfl, rfl, rfl, rfl, rfl, rfl, rfl, rfl⟩, rfl, _, rfl, List.cons_ne_nil _ _⟩
  obtain ⟨f, front, hhead, hfront, failed, hfailed, hfindings⟩ := hhead
  have hmoduleHead : (grammar 5).ReadsModuleHead ⟨[.word "mod", .word "m", .group .brace markedFunction], none⟩
      [Tree.word "mod", .leaf (.word "m")] ⟨[.group .brace markedFunction], none⟩ :=
    ⟨[], _, [], ⟨"m", by decide⟩, rfl, rfl, rfl⟩
  obtain ⟨inModule, hinModule, hmoduleTree⟩ := (hread 5 _ _ [] _ _ _ hitems _ _).1 hmoduleHead
  obtain ⟨inBody, hinBody, hbodyTree⟩ := (hread 5 _ _ [] _ _ _ hitems _ _).2 f rfl hhead
  refine ⟨tree, inModule, inBody, report, failed, hitems, hinModule, hinBody, hreport, hnone, hfindings, ?_, ?_⟩
  · rw [hmoduleTree, hmodule, hreport]
    rfl
  · rw [hbodyTree, hbody, hfailed, hfront, hreport]
    rfl

end Report

end CommandBinding
