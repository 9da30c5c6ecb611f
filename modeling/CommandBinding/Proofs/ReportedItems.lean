import CommandBinding.Proofs.CheckedExpansion
import CommandBinding.Proofs.ItemForms

/-!
Which directives of a file are reported on. All trees of the file are looked at, from the outside to the inside, and every
directive on a function or a definition that has a tree of its own gives one report. A directive on any other item gives
none, so the reports miss those on modules, on implementations, on imports, and on what stands in a trait.

What is kept as it is written, such as a function without a body or a constant without a value, is only tokens: the
directives among these are not counted here, and they are not reported on either.
-/
namespace CommandBinding

open Source

namespace Source.Tree

mutual

/-- A tree and those below it, from the outside to the inside. -/
def subtrees : Tree → List Tree
  | leaf token => [leaf token]
  | group delimiter inner => group delimiter inner :: subtreesOf inner
  | node kind children => node kind children :: subtreesOf children
  | function item inside => function item inside :: subtreesOf inside
  | written tokens inside => written tokens inside :: subtreesOf inside
  | definition name attributes children => definition name attributes children :: subtreesOf children

def subtreesOf : List Tree → List Tree
  | [] => []
  | tree :: rest => tree.subtrees ++ subtreesOf rest

end

theorem subtrees_eq (tree : Tree) : tree.subtrees = tree :: subtreesOf tree.children := by
  cases tree <;> rfl

def directives (tree : Tree) : List (DirectiveKind × Attribute) :=
  tree.attributes.filterMap fun a => (directiveKind? a).map (·, a)

end Source.Tree

/-- The items and statements in trees, each with one of its directives; those that are kept as they are written have none. -/
def directivesIn (trees : Trees) : List (Tree × DirectiveKind × Attribute) :=
  (Tree.subtreesOf trees).flatMap fun tree => tree.directives.map (tree, ·)

namespace Report

variable {trees : Trees}

/-- The report on a directive of an item or a statement, if it gives one. -/
def about? (settings : Settings) : Tree → DirectiveKind × Attribute → Option Report
  | .function f _, (kind, a) => some ⟨f.signature.name.text, kind, bindFunction f settings kind a⟩
  | .definition name _ _, (kind, _) => some ⟨name, kind, .error [.onFunction .notAFunction]⟩
  | _, _ => none

theorem isSome_about? (settings : Settings) (tree : Tree) (d : DirectiveKind × Attribute) :
    (about? settings tree d).isSome = (tree.isFunction || tree.isDefinition) := by
  cases tree <;> rfl

theorem filterMap_ofAttribute? (settings : Settings) (tree : Tree) {name : String}
    {check : DirectiveKind → Attribute → Except (List Finding) Binding}
    (h : ∀ kind a, about? settings tree (kind, a) = some ⟨name, kind, check kind a⟩) :
    tree.attributes.filterMap (ofAttribute? name check) = tree.directives.filterMap (about? settings tree) := by
  rw [Tree.directives, List.filterMap_filterMap]
  refine List.filterMap_congr fun a _ => ?_
  cases hkind : directiveKind? a with
  | none => simp [ofAttribute?, hkind]
  | some kind => simp [ofAttribute?, hkind, h]

/-- A tree is reported on for its own directives, and then for those below it. -/
theorem ofTree_eq (settings : Settings) (tree : Tree) : ofTree settings tree =
    tree.directives.filterMap (about? settings tree) ++ ofTrees settings tree.children := by
  have hnone : (∀ d, about? settings tree d = none) → tree.directives.filterMap (about? settings tree) = [] :=
    fun h => List.filterMap_eq_nil_iff.mpr fun d _ => h d
  cases tree with
  | function f inside =>
    have hown := filterMap_ofAttribute? settings (.function f inside) fun _ _ => rfl
    rw [← hown]
    rfl
  | definition name attributes children =>
    have hown := filterMap_ofAttribute? settings (.definition name attributes children) fun _ _ => rfl
    rw [← hown]
    rfl
  | _ =>
    rw [hnone fun _ => rfl]
    rfl

/-- Nothing is reported on what is kept as it is written, whatever attributes its tokens begin with. -/
theorem ofTree_verbatim (settings : Settings) (tokens : List Token) :
    ofTree settings (.node .verbatim (Tree.leaves tokens)) = [] := by
  have hleaves : ofTrees settings (Tree.leaves tokens) = [] := by
    induction tokens with
    | nil => rfl
    | cons token tokens ih => exact ih
  exact hleaves

mutual

theorem ofTree_eq_flatMap (settings : Settings) : ∀ tree : Tree, ofTree settings tree =
    tree.subtrees.flatMap fun t => t.directives.filterMap (about? settings t)
  | .leaf token => by rw [ofTree_eq, Tree.subtrees_eq, List.flatMap_cons]; rfl
  | .group delimiter inner => by
    rw [ofTree_eq, Tree.subtrees_eq, List.flatMap_cons, Tree.children, ofTrees_eq_flatMap settings inner]
  | .node kind children => by
    rw [ofTree_eq, Tree.subtrees_eq, List.flatMap_cons, Tree.children, ofTrees_eq_flatMap settings children]
  | .function f inside => by
    rw [ofTree_eq, Tree.subtrees_eq, List.flatMap_cons, Tree.children, ofTrees_eq_flatMap settings inside]
  | .written tokens inside => by
    rw [ofTree_eq, Tree.subtrees_eq, List.flatMap_cons, Tree.children, ofTrees_eq_flatMap settings inside]
  | .definition name attributes children => by
    rw [ofTree_eq, Tree.subtrees_eq, List.flatMap_cons, Tree.children, ofTrees_eq_flatMap settings children]

theorem ofTrees_eq_flatMap (settings : Settings) : ∀ trees : List Tree, ofTrees settings trees =
    (Tree.subtreesOf trees).flatMap fun t => t.directives.filterMap (about? settings t)
  | [] => rfl
  | tree :: rest => by
    rw [ofTrees, Tree.subtreesOf, List.flatMap_append, ofTree_eq_flatMap settings tree, ofTrees_eq_flatMap settings rest]

end

/-- The reports on trees are those on the directives in them, in their order. -/
theorem ofTrees_eq_filterMap (settings : Settings) (trees : Trees) :
    ofTrees settings trees = (directivesIn trees).filterMap fun d => about? settings d.1 d.2 := by
  rw [ofTrees_eq_flatMap, directivesIn, List.filterMap_flatMap]
  simp only [List.filterMap_map, Function.comp_def]

/-- There are as many reports on a file as directives on its items and statements exactly if each of these is on a function
or on a definition. The words in front of an item tell whether it can be one, and a function has to have a body. No item of
a trait can be one, and none that is defined elsewhere. -/
theorem complete_iff {text : String} (settings : Settings) (h : parseFile text = .ok trees) :
    ∃ reports, ofSource text settings = .ok reports ∧
    reports = (directivesIn trees).filterMap (fun d => about? settings d.1 d.2) ∧
    (reports.length = (directivesIn trees).length ↔
      ∀ d ∈ directivesIn trees, (d.1.isFunction || d.1.isDefinition) = true) ∧
    ∀ (rec : Recur) (r r' : Reading) (tree : Tree),
      (rec.item r = .ok (tree, r') → ∃ attributes s found ahead s', rec.outerAttributes r = .ok (attributes, s) ∧
        peekVisibility s = .ok ((found, ahead), s') ∧ (ItemForm.of ahead).Fits attributes tree) ∧
      (rec.implementationItem r = .ok (tree, r') → ∃ attributes s, rec.outerAttributes r = .ok (attributes, s) ∧
        (ItemForm.function.Fits attributes tree ∨ ItemForm.other.Fits attributes tree)) ∧
      (rec.traitItem r = .ok (tree, r') → ∃ attributes s, rec.outerAttributes r = .ok (attributes, s) ∧
        ItemForm.other.Fits attributes tree) ∧
      (rec.foreignItem r = .ok (tree, r') → ∃ attributes s, rec.outerAttributes r = .ok (attributes, s) ∧
        ItemForm.other.Fits attributes tree) ∧
      ∀ start attributes visibility defaultness,
        rec.functionOrSignature start attributes visibility defaultness r = .ok (tree, r') →
          ∃ signature s, rec.signature r = .ok (signature, s) ∧
            (tree.isFunction = true ↔ atOperator ";" s.tokens = false) := by
  have hsource : ofSource text settings = .ok (ofTrees settings trees) := by
    rw [ofSource, h]
    rfl
  refine ⟨_, hsource, ofTrees_eq_filterMap settings trees, ?_, fun rec r r' tree => ?_⟩
  · rw [ofTrees_eq_filterMap, List.filterMap_length_eq_length]
    simp only [isSome_about?]
  · exact ⟨rec.fits_of_item, rec.fits_of_implementationItem, rec.fits_of_traitItem, rec.fits_of_foreignItem,
      fun start attributes visibility defaultness => rec.isFunction_iff⟩

/-- A file with a directive on a module and one on a function of a trait. -/
def unreportedText : String :=
  "#[call_function] mod m \x7b\x7d trait T \x7b #[call_function] fn f() \x7b\x7d \x7d"

/-- Neither of its directives is reported on. -/
theorem incomplete : ∃ trees reports, parseFile unreportedText = .ok trees ∧ ofSource unreportedText {} = .ok reports ∧
    (directivesIn trees).map (·.2.1) = [.callFunction, .callFunction] ∧ reports = [] := by
  have hparsed : ((parseFile unreportedText).toOption.map fun trees => ((directivesIn trees).map (·.2.1),
      (directivesIn trees).all fun d => !(d.1.isFunction || d.1.isDefinition))) =
      some ([.callFunction, .callFunction], true) := by decide +kernel
  obtain ⟨trees, hfile, htrees⟩ := Option.map_eq_some_iff.mp hparsed
  have hfile := eq_ok_of_toOption hfile
  obtain ⟨hkinds, hothers⟩ := Prod.mk.inj htrees
  obtain ⟨reports, hsource, hreports, -, -⟩ := complete_iff {} hfile
  refine ⟨trees, reports, hfile, hsource, hkinds, ?_⟩
  rw [hreports, List.filterMap_eq_nil_iff]
  intro d hd
  have hother := List.all_eq_true.mp hothers d hd
  rw [← Option.not_isSome_iff_eq_none, isSome_about?]
  simpa using hother

end Report

end CommandBinding
