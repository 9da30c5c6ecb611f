import CommandBinding.Proofs.ParserRuns
import CommandBinding.Proofs.ReadDirectives
import CommandBinding.Source.File

/-!
Which trees items are read as. The words behind the attributes and the visibility of an item tell what it is, and only
functions with a body and whole definitions of types and values get trees of their own. All other items are nodes that keep
their attributes, or they are kept as they are written.
-/
namespace CommandBinding.Source

open CommandBinding.Source.Parser

namespace Tree

/-- The attributes of an item or a statement. What is kept as it is written has only tokens. -/
def attributes : Tree → List Attribute
  | function item _ => item.attributes
  | definition _ attributes _ => attributes
  | node .item children => Attribute.ofTrees children
  | _ => []

def isFunction : Tree → Bool
  | function _ _ => true
  | _ => false

def isDefinition : Tree → Bool
  | definition _ _ _ => true
  | _ => false

end Tree

/-- What an item is, as the words in front of it tell. -/
inductive ItemForm where
  | function
  /-- A type or a value. -/
  | definition
  /-- A trait, or another name for bounds. -/
  | trait
  | other
deriving DecidableEq, Repr

variable {attributes trees : Trees} {start ahead : List Token} {tree : Tree} {r r' : Reading}

namespace ItemForm

def atData (tokens : List Token) : Bool :=
  atOneOf ["struct", "enum"] tokens || (atWord "union" tokens && atName (tokens.drop 1))

def atTrait (tokens : List Token) : Bool :=
  atWord "trait" tokens || (atWord "auto" tokens && atWord "trait" (tokens.drop 1))

/-- The form of an item with the tokens `ahead` behind its visibility. -/
def of (ahead : List Token) : ItemForm :=
  if atSignature ahead then .function
  else if atOneOf ["static", "const", "type"] ahead || atData ahead then .definition
  else if atTrait ahead || (atWord "unsafe" ahead && atTrait (ahead.drop 1)) then .trait
  else .other

theorem of_eq_definition (hsignature : ¬atSignature ahead = true)
    (h : (atOneOf ["static", "const", "type"] ahead || atData ahead) = true) : of ahead = .definition := by
  rw [of, if_neg hsignature, if_pos h]

theorem of_eq_other {word : String} {behind : List Token} (hsignature : ¬atSignature (.word word :: behind) = true)
    (h : word ∈ ["extern", "use", "mod"]) : of (.word word :: behind) = .other := by
  have hwords : ∀ word ∈ ["extern", "use", "mod"], ∀ other ∈ ["static", "const", "type", "struct", "enum", "union", "trait",
      "auto", "unsafe"], (word == other) = false := by decide
  have hother := hwords word h
  simp only [List.forall_mem_cons] at hother
  simp [of, hsignature, atOneOf, atData, atTrait, atWord, hother]

def Allows : ItemForm → Tree → Prop
  | function, tree => tree.isFunction = true ∨ tree.kind = .verbatim
  | definition, tree => tree.isDefinition = true ∨ tree.kind = .verbatim
  | trait, tree => tree.isDefinition = true ∨ tree.kind = .item
  | other, tree => tree.kind = .item ∨ tree.kind = .verbatim

/-- Whether an item of a form behind `attributes` may be read as a tree. Unless it is kept as it is written, the tree has
these attributes in front of others. -/
structure Fits (form : ItemForm) (attributes : Trees) (tree : Tree) : Prop where
  allowed : form.Allows tree
  keeps : tree.kind = .verbatim ∨ Attribute.ofTrees attributes <+: tree.attributes

end ItemForm

theorem ofTrees_prefix : Attribute.ofTrees attributes <+: Attribute.ofTrees (attributes ++ trees) := by
  simp only [Attribute.ofTrees, List.filterMap_append, List.prefix_append]

theorem fits_item {form : ItemForm} (hform : form.Allows (.node .item (attributes ++ trees))) :
    form.Fits attributes (.node .item (attributes ++ trees)) :=
  ⟨hform, Or.inr ofTrees_prefix⟩

theorem ItemForm.Fits.of_append {form : ItemForm} (h : form.Fits (attributes ++ trees) tree) : form.Fits attributes tree :=
  ⟨h.allowed, h.keeps.imp_right ofTrees_prefix.trans⟩

theorem yields_keptSince {form : ItemForm} (hform : ∀ leaves, form.Allows (.node .verbatim leaves)) :
    Yields (keptSince start) (form.Fits attributes) :=
  Yields.behind fun _ => Yields.pure ⟨hform _, Or.inl rfl⟩

theorem yields_definitionOr (d : Definition) :
    Yields (Recur.definitionOr start attributes d) (ItemForm.definition.Fits attributes) :=
  Yields.ite (Yields.pure ⟨Or.inl rfl, Or.inr List.prefix_rfl⟩) (yields_keptSince fun _ => Or.inr rfl)

open ItemForm (atData atTrait)

namespace Recur

variable (rec : Recur) {hasVisibility : Bool}

theorem exists_attributes {body : List Token → Trees → Parser Tree}
    (h : (do let start ← remaining; let attributes ← rec.outerAttributes; body start attributes) r = .ok (tree, r')) :
    ∃ attributes s, rec.outerAttributes r = .ok (attributes, s) ∧ body r.tokens attributes s = .ok (tree, r') := by
  rw [run_remaining_bind_iff] at h
  exact run_bind_iff.mp h

theorem exists_fits (fits : Trees → Tree → Prop) {body : List Token → Trees → Parser Tree}
    (hbody : ∀ start attributes, Yields (body start attributes) (fits attributes))
    (h : (do let start ← remaining; let attributes ← rec.outerAttributes; body start attributes) r = .ok (tree, r')) :
    ∃ attributes s, rec.outerAttributes r = .ok (attributes, s) ∧ fits attributes tree := by
  obtain ⟨attributes, s, hattributes, h⟩ := exists_attributes rec h
  exact ⟨attributes, s, hattributes, hbody _ _ _ _ _ h⟩

theorem yields_restOfFunction {visibility defaultness inside : Trees} {signature : Signature} :
    Yields (rec.restOfFunction attributes visibility defaultness signature inside) fun result =>
      Attribute.ofTrees attributes <+: result.1.attributes :=
  Yields.behind fun _ => Yields.pure ofTrees_prefix

theorem yields_functionOrSignature {visibility defaultness : Trees} :
    Yields (rec.functionOrSignature start attributes visibility defaultness) (ItemForm.function.Fits attributes) := by
  refine Yields.behind fun signature => Yields.behind fun tokens => Yields.ite ?_ ?_
  · exact Yields.behind fun semicolon => yields_keptSince fun _ => Or.inr rfl
  · exact (yields_restOfFunction rec).bind fun result hattributes => Yields.pure ⟨Or.inl rfl, Or.inr hattributes⟩

/-- A function has a tree of its own exactly if no semicolon stands in the place of its body. -/
theorem isFunction_iff {visibility defaultness : Trees}
    (h : rec.functionOrSignature start attributes visibility defaultness r = .ok (tree, r')) :
    ∃ signature s, rec.signature r = .ok (signature, s) ∧ (tree.isFunction = true ↔ atOperator ";" s.tokens = false) := by
  rw [functionOrSignature, run_bind_iff] at h
  obtain ⟨signature, s, hsignature, h⟩ := h
  refine ⟨signature, s, hsignature, ?_⟩
  rw [run_remaining_bind_iff] at h
  split at h
  · next hsemicolon =>
    rw [run_bind_iff] at h
    obtain ⟨semicolon, s', -, h⟩ := h
    rw [keptSince, run_bind_iff] at h
    obtain ⟨behind, s'', -, h⟩ := h
    obtain ⟨rfl, -⟩ := run_pure_iff.mp h
    simpa [Tree.isFunction] using hsemicolon
  · next hsemicolon =>
    rw [run_bind_iff] at h
    obtain ⟨item, s', -, h⟩ := h
    obtain ⟨rfl, -⟩ := run_pure_iff.mp h
    simpa [Tree.isFunction] using hsemicolon

theorem yields_traitDefinition : Yields (rec.traitDefinition attributes) (ItemForm.trait.Fits attributes) := by
  unfold traitDefinition
  refine Yields.behind fun visibility => Yields.behind fun unsafety => Yields.behind fun auto => ?_
  refine Yields.behind fun head => Yields.behind fun name => Yields.behind fun generics => ?_
  refine Yields.behind fun tokens => Yields.ite ?_ ?_
  · refine Yields.behind fun equals => Yields.behind fun bounds => ?_
    refine Yields.behind fun clause => Yields.behind fun semicolon => ?_
    rw [List.append_assoc]
    exact Yields.pure (fits_item (Or.inr rfl))
  · refine Yields.behind fun colon => ?_
    extract_lets -underBinder ends behindBounds
    have hbehind : ∀ bounds, Yields (behindBounds bounds) (ItemForm.trait.Fits attributes) := by
      intro bounds
      refine Yields.behind fun clause => Yields.behind fun items => Yields.pure ⟨Or.inl rfl, Or.inr ?_⟩
      exact ofTrees_prefix
    exact Yields.ite (Yields.behind hbehind) (Yields.behind hbehind)

theorem yields_implementation : Yields (rec.implementation start attributes) (ItemForm.other.Fits attributes) := by
  unfold implementation
  refine Yields.behind fun visibility => Yields.behind fun defaultness => ?_
  refine Yields.behind fun unsafety => Yields.behind fun head => Yields.behind fun tokens => ?_
  -- Each part that may be absent is followed by one continuation, which is the same whether the part stands or not.
  extract_lets -underBinder behindGenerics
  have hgenerics : ∀ generics, Yields (behindGenerics generics) (ItemForm.other.Fits attributes) := by
    intro generics
    refine Yields.behind fun tokens => ?_
    extract_lets -underBinder isConstant behindConstness
    have hconstness : ∀ u, Yields (behindConstness u) (ItemForm.other.Fits attributes) := by
      intro u
      refine Yields.behind fun tokens => ?_
      extract_lets -underBinder behindPolarity
      have hpolarity : ∀ polarity, Yields (behindPolarity polarity) (ItemForm.other.Fits attributes) := by
        intro polarity
        refine Yields.behind fun first => Yields.behind fun tokens => ?_
        extract_lets -underBinder isTraitFor behindCheck
        have hcheck : ∀ u, Yields (behindCheck u) (ItemForm.other.Fits attributes) := by
          intro u
          unfold behindCheck
          extract_lets -underBinder behindSubject
          have hsubject : ∀ subject, Yields (behindSubject subject) (ItemForm.other.Fits attributes) := by
            intro subject
            refine Yields.behind fun clause => Yields.behind fun items => Yields.ite ?_ ?_
            · exact yields_keptSince fun _ => Or.inr rfl
            · simp only [List.append_assoc]
              exact Yields.pure (fits_item (Or.inl rfl))
          refine Yields.ite ?_ (Yields.behind hsubject)
          refine Yields.behind fun between => Yields.behind fun type => ?_
          exact Yields.behind hsubject
        exact Yields.ite (Yields.behind hcheck) (hcheck ())
      exact Yields.ite (Yields.behind hpolarity) (Yields.behind hpolarity)
    refine Yields.ite (Yields.behind fun sign => ?_) (hconstness ())
    exact Yields.behind fun head => hconstness ()
  exact Yields.ite (Yields.behind hgenerics) (Yields.behind hgenerics)

theorem yields_itemBehind : Yields (rec.itemBehind start attributes hasVisibility ahead)
    ((ItemForm.of ahead).Fits attributes) := by
  -- The cases are those of the parser, in its order; a word that was not found in one of them matters in the later ones.
  have hnode : ∀ {p : Parser Trees} {form : ItemForm}, (∀ trees, form.Allows (.node .item trees)) →
      Yields (do return .node .item (attributes ++ (← p))) (form.Fits attributes) :=
    fun hform => Yields.behind fun trees => Yields.pure (fits_item (hform _))
  refine Yields.ite_of (fun h => ?_) fun hsignature => ?_
  · have hform : ItemForm.of ahead = .function := if_pos h
    rw [hform]
    exact Yields.behind fun visibility => yields_functionOrSignature rec
  refine Yields.ite_of (fun h => ?_) fun hextern => ?_
  · obtain ⟨behind, rfl⟩ := exists_of_atWord h
    rw [ItemForm.of_eq_other hsignature (by simp)]
    refine Yields.ite (hnode fun _ => Or.inl rfl) ?_
    exact Yields.behind fun visibility => Yields.ite (hnode fun _ => Or.inl rfl) (Yields.misplaced _)
  refine Yields.ite_of (fun h => ?_) fun huse => ?_
  · obtain ⟨behind, rfl⟩ := exists_of_atWord h
    rw [ItemForm.of_eq_other hsignature (by simp)]
    exact hnode fun _ => Or.inl rfl
  refine Yields.ite_of (fun h => ?_) fun hstatic => ?_
  · rw [ItemForm.of_eq_definition hsignature (by simp [atOneOf, h])]
    exact Yields.behind fun value => yields_definitionOr value
  refine Yields.ite_of (fun h => ?_) fun hconst => ?_
  · rw [ItemForm.of_eq_definition hsignature (by simp [atOneOf, h])]
    refine Yields.behind fun visibility => Yields.behind fun head => ?_
    exact Yields.behind fun value => yields_definitionOr value
  refine Yields.ite_of (fun h => ?_) fun hunsafe => ?_
  · obtain ⟨behind, rfl⟩ := exists_of_atWord h
    refine Yields.ite_of (fun htrait => ?_) fun htrait => ?_
    · have hform : ItemForm.of (.word "unsafe" :: behind) = .trait := by
        have htrait : atTrait behind = true := htrait
        simp [ItemForm.of, hsignature, atOneOf, atWord, atData, htrait]
      rw [hform]
      exact yields_traitDefinition rec
    · have hform : ItemForm.of (.word "unsafe" :: behind) = .other := by
        have hown : atTrait (.word "unsafe" :: behind) = false := by simp [atTrait, atWord]
        have htrait : ¬atTrait behind = true := htrait
        simp [ItemForm.of, hsignature, atOneOf, atWord, atData, hown, htrait]
      rw [hform]
      refine Yields.ite (yields_implementation rec) (Yields.ite (hnode fun _ => Or.inl rfl) ?_)
      exact Yields.ite (hnode fun _ => Or.inl rfl) (Yields.misplaced _)
  refine Yields.ite_of (fun h => ?_) fun hmod => ?_
  · obtain ⟨behind, rfl⟩ := exists_of_atWord h
    rw [ItemForm.of_eq_other hsignature (by simp)]
    exact hnode fun _ => Or.inl rfl
  refine Yields.ite_of (fun h => ?_) fun htype => ?_
  · rw [ItemForm.of_eq_definition hsignature (by simp [atOneOf, h])]
    exact Yields.behind fun definition => yields_definitionOr definition
  refine Yields.ite_of (fun h => ?_) fun hdata => ?_
  · have hdata : atData ahead = true := h
    rw [ItemForm.of_eq_definition hsignature (by simp [hdata])]
    exact Yields.behind fun data => Yields.pure ⟨Or.inl rfl, Or.inr List.prefix_rfl⟩
  have hdefinition : ¬(atOneOf ["static", "const", "type"] ahead || atData ahead) = true := by
    have hdata : ¬atData ahead = true := hdata
    simp [atOneOf, hstatic, hconst, htype, hdata]
  refine Yields.ite_of (fun h => ?_) fun htrait => ?_
  · have htrait : atTrait ahead = true := h
    have hform : ItemForm.of ahead = .trait := by simp [ItemForm.of, hsignature, hdefinition, htrait]
    rw [hform]
    exact yields_traitDefinition rec
  have hform : ItemForm.of ahead = .other := by
    have htrait : ¬atTrait ahead = true := htrait
    simp [ItemForm.of, hsignature, hdefinition, htrait, hunsafe]
  rw [hform]
  refine Yields.ite (yields_implementation rec) (Yields.ite ?_ (Yields.ite (hnode fun _ => Or.inl rfl) (Yields.misplaced _)))
  refine Yields.behind fun visibility => Yields.behind fun u => ?_
  exact yields_keptSince fun _ => Or.inr rfl

/-- An item that is read is one of the form that the words behind its attributes and its visibility tell. -/
theorem fits_of_item (h : rec.item r = .ok (tree, r')) : ∃ attributes s found ahead s',
    rec.outerAttributes r = .ok (attributes, s) ∧ peekVisibility s = .ok ((found, ahead), s') ∧
      (ItemForm.of ahead).Fits attributes tree := by
  obtain ⟨attributes, s, hattributes, h⟩ := exists_attributes rec h
  rw [run_bind_iff] at h
  obtain ⟨⟨found, ahead⟩, s', hvisibility, h⟩ := h
  exact ⟨attributes, s, found, ahead, s', hattributes, hvisibility, yields_itemBehind rec _ _ _ h⟩

/-- An item of an implementation is a function, or it has no tree of its own. -/
theorem fits_of_implementationItem (h : rec.implementationItem r = .ok (tree, r')) : ∃ attributes s,
    rec.outerAttributes r = .ok (attributes, s) ∧
      (ItemForm.function.Fits attributes tree ∨ ItemForm.other.Fits attributes tree) := by
  let fits (attributes : Trees) (tree : Tree) : Prop :=
    ItemForm.function.Fits attributes tree ∨ ItemForm.other.Fits attributes tree
  refine exists_fits rec fits (fun start attributes => ?_) h
  have hnode : ∀ trees, Yields (pure (.node .item (attributes ++ trees))) (fits attributes) :=
    fun trees => Yields.pure (Or.inr (fits_item (Or.inl rfl)))
  have hkept : Yields (keptSince start) (fits attributes) :=
    Yields.behind fun behind => Yields.pure (Or.inr ⟨Or.inr rfl, Or.inl rfl⟩)
  refine Yields.behind fun visibility => Yields.behind fun tokens => Yields.behind fun again => ?_
  extract_lets -underBinder behindDefaultness
  have hbehind : ∀ defaultness, Yields (behindDefaultness defaultness) (fits attributes) := by
    intro defaultness
    refine Yields.behind fun tokens => Yields.ite ?_ (Yields.ite ?_ (Yields.ite ?_ (Yields.ite ?_ (Yields.misplaced _))))
    · exact fun r tree r' h => Or.inl (yields_functionOrSignature rec r tree r' h)
    · exact Yields.behind fun head => Yields.behind fun d => Yields.ite (hnode _) hkept
    · simp only [List.append_assoc]
      exact Yields.behind fun d => Yields.ite (hnode _) hkept
    · exact Yields.behind hnode
  exact Yields.ite (Yields.behind hbehind) (Yields.behind hbehind)

/-- No item of a trait has a tree of its own, even if it is a function with a body. -/
theorem fits_of_traitItem (h : rec.traitItem r = .ok (tree, r')) : ∃ attributes s,
    rec.outerAttributes r = .ok (attributes, s) ∧ ItemForm.other.Fits attributes tree := by
  refine exists_fits rec ItemForm.other.Fits (fun start attributes => ?_) h
  refine Yields.behind fun visibility => Yields.behind fun defaultness => Yields.behind fun tokens => ?_
  extract_lets -underBinder isPlain behindItem
  have hitem : ∀ item, Yields (behindItem item) (ItemForm.other.Fits attributes) :=
    fun item => Yields.ite (Yields.pure (fits_item (Or.inl rfl))) (yields_keptSince fun _ => Or.inr rfl)
  have hread : ∀ {α : Type} {p : Parser α} {item : α → Trees × Bool},
      Yields (p >>= fun value => pure (item value) >>= behindItem) (ItemForm.other.Fits attributes) :=
    Yields.behind fun value => Yields.behind hitem
  refine Yields.ite hread (Yields.ite ?_ (Yields.ite hread (Yields.ite hread ?_)))
  · exact Yields.behind fun head => hread
  · exact Yields.behind hitem

theorem yields_foreignFunction {isSafe : Bool} :
    Yields (rec.foreignFunction start attributes isSafe) (ItemForm.other.Fits attributes) := by
  refine Yields.behind fun signature => Yields.behind fun tokens => Yields.ite ?_ ?_
  · exact Yields.behind fun body => yields_keptSince fun _ => Or.inr rfl
  · refine Yields.behind fun semicolon => Yields.ite (yields_keptSince fun _ => Or.inr rfl) ?_
    exact Yields.pure (fits_item (Or.inl rfl))

theorem yields_foreignValue : Yields (rec.foreignValue start attributes) (ItemForm.other.Fits attributes) := by
  refine Yields.behind fun unsafety => ?_
  extract_lets -underBinder behindSafety
  have hbehind : ∀ safety, Yields (behindSafety safety) (ItemForm.other.Fits attributes) := by
    intro safety
    refine Yields.behind fun head => Yields.behind fun mutable => Yields.behind fun name => ?_
    refine Yields.behind fun colon => Yields.behind fun type => Yields.behind fun value => ?_
    refine Yields.behind fun semicolon => Yields.ite ?_ (yields_keptSince fun _ => Or.inr rfl)
    simp only [List.append_assoc]
    exact Yields.pure (fits_item (Or.inl rfl))
  exact Yields.ite (Yields.behind hbehind) (Yields.behind hbehind)

/-- No item that is defined elsewhere has a tree of its own. -/
theorem fits_of_foreignItem (h : rec.foreignItem r = .ok (tree, r')) : ∃ attributes s,
    rec.outerAttributes r = .ok (attributes, s) ∧ ItemForm.other.Fits attributes tree := by
  refine exists_fits rec ItemForm.other.Fits (fun start attributes => ?_) h
  refine Yields.behind fun visibility => Yields.behind fun tokens => ?_
  have hhead : ∀ {p : Parser Tree}, Yields p (ItemForm.other.Fits (attributes ++ visibility)) →
      Yields p (ItemForm.other.Fits attributes) := fun hp r tree r' h => (hp r tree r' h).of_append
  refine Yields.ite (Yields.behind fun u => hhead (yields_foreignFunction rec)) ?_
  refine Yields.ite (hhead (yields_foreignValue rec)) (Yields.ite ?_ (Yields.ite ?_ (Yields.misplaced _)))
  · refine Yields.behind fun definition => Yields.ite ?_ (yields_keptSince fun _ => Or.inr rfl)
    exact hhead (Yields.pure (fits_item (Or.inl rfl)))
  · exact Yields.behind fun trees => Yields.pure (fits_item (Or.inl rfl))

end Recur

end CommandBinding.Source
