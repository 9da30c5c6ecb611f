import CommandBinding.Proofs.DeclaredInputs
import CommandBinding.Proofs.LocalPatterns
import Mathlib.Data.List.Chain

/-!
Parameters that are read back. Where the tokens of a list of parameters are read as these parameters, each of them is
read from its own tokens, so the list can also be read without the options of some.
-/
namespace CommandBinding.Source

open CommandBinding.Source.Parser

/-! Where lists part at a break -/

section Breaks

variable {c c' d d' : List Token} {token token' : Token} {trees trees' : Trees}

theorem eq_of_breaks (htoken : isBreak token = true) (htoken' : isBreak token' = true)
    (heq : c ++ token :: d = c' ++ token' :: d') (hbreaks : breaks c = breaks c') :
    c = c' ∧ token = token' ∧ d = d' := by
  obtain ⟨e, rfl, h⟩ | ⟨e, rfl, h⟩ := List.append_eq_append_iff.mp heq
  all_goals
    cases e with
    | nil => simp_all
    | cons first e =>
      obtain ⟨rfl, -⟩ := List.cons.inj h
      simp [breaks, *] at hbreaks

/-- What is read and what is written part at the same break, if the whole is the same. -/
theorem Keeps.split (h : Keeps c trees) (h' : Keeps d trees') (htoken : isBreak token = true)
    (htoken' : isBreak token' = true)
    (heq : c ++ token :: d = Tree.tokensOf trees ++ token' :: Tree.tokensOf trees') :
    c = Tree.tokensOf trees ∧ token = token' ∧ d = Tree.tokensOf trees' := by
  have hfor : ∀ {token : Token}, isBreak token = true → binders [token] = 0 := fun hbreak => by
    rw [binders, List.countP_eq_zero]
    rintro _ hmem hfor
    obtain rfl := List.mem_singleton.mp hmem
    obtain rfl := of_decide_eq_true hfor
    cases hbreak
  have hone : ∀ {token : Token}, isBreak token = true → breaks [token] = 1 := fun hbreak => by simp [breaks, hbreak]
  have hbinders := congrArg binders heq
  have hbreaks := congrArg breaks heq
  rw [← List.singleton_append (x := token), ← List.singleton_append (x := token')] at hbinders hbreaks
  simp only [binders_append, breaks_append, hfor htoken, hfor htoken', hone htoken, hone htoken'] at hbinders hbreaks
  obtain ⟨hless, hkeeps⟩ := h
  obtain ⟨hless', hkeeps'⟩ := h'
  refine eq_of_breaks htoken htoken' heq ?_
  have := hkeeps (by omega)
  have := hkeeps' (by omega)
  omega

theorem Keeps.of_no_breaks (hbreaks : breaks c = 0) (hbinders : binders (Tree.tokensOf trees) = 0) : Keeps c trees :=
  ⟨by omega, fun _ => by omega⟩

end Breaks

/-! Attributes -/

/-- Attributes are read one after another, whatever stands behind them. -/
inductive ReadsAttributes (rec : Recur) : Option Delimiter → List Token → List Attribute → Option Delimiter → Prop
  | nil (o : Option Delimiter) : ReadsAttributes rec o [] [] o
  | cons {o o' o'' : Option Delimiter} {joint : Bool} {inner c : List Token} {tree : Tree} {a : Attribute}
    {attributes : List Attribute} :
    (∀ rest, rec.outerAttribute ⟨.mark '#' joint :: .group .bracket inner :: rest, o⟩ = .ok ([tree], ⟨rest, o'⟩)) →
      Attribute.ofTree? tree = some a → a.isInner = false → ReadsAttributes rec o' c attributes o'' →
        ReadsAttributes rec o (.mark '#' joint :: .group .bracket inner :: c) (a :: attributes) o''

section Attributes

variable {rec : Recur} {r r' : Reading} {o o' : Option Delimiter} {c : List Token} {attributes : List Attribute}
    {trees : Trees}

theorem Attribute.breaks_tokens (attributes : List Attribute) :
    breaks (attributes.flatMap Attribute.tokens) = 0 ∧ binders (attributes.flatMap Attribute.tokens) = 0 := by
  induction attributes with
  | nil => exact ⟨rfl, rfl⟩
  | cons a attributes ih =>
    have hfirst : breaks a.tokens = 0 ∧ binders a.tokens = 0 := by
      cases hinner : a.isInner <;> simp [Attribute.tokens, hinner, breaks, binders, isBreak]
    simp only [List.flatMap_cons, breaks_append, binders_append]
    omega

theorem exists_of_attributeInside (h : rec.attributeInside r = .ok (trees, r')) :
    ∃ path content, trees = [Tree.part path, Tree.part content] := by
  have hread := run_remaining_bind_iff.mp h
  split at hread
  all_goals
    obtain ⟨path, s, -, hread⟩ := run_bind_iff.mp hread
    obtain ⟨content, s', -, hread⟩ := run_bind_iff.mp hread
    exact ⟨path, content, (run_pure_iff.mp hread).1.symm⟩

theorem exists_of_outerAttribute (h : rec.outerAttribute r = .ok (trees, r')) : ∃ joint inner tree a,
    r.tokens = .mark '#' joint :: .group .bracket inner :: r'.tokens ∧ trees = [tree] ∧
      Attribute.ofTree? tree = some a ∧
      a.isInner = false ∧ ∀ rest, rec.outerAttribute ⟨.mark '#' joint :: .group .bracket inner :: rest, r.leftover?⟩ =
        .ok ([tree], ⟨rest, r'.leftover?⟩) := by
  obtain ⟨sign, s, hsign, h⟩ := run_bind_iff.mp h
  obtain ⟨group, s', hgroup, h⟩ := run_bind_iff.mp h
  obtain ⟨value, s', hwithin, hvalue⟩ := run_bind_iff.mp hgroup
  obtain ⟨rfl, rfl⟩ := run_pure_iff.mp hvalue
  obtain ⟨rfl, rfl⟩ := run_pure_iff.mp h
  obtain ⟨behind, hsharp, rfl, rfl⟩ := run_operator_iff.mp hsign
  obtain ⟨joint, hmark⟩ : ∃ joint, r.tokens = .mark '#' joint :: behind := exists_mark_of_behindOperator? hsharp
  obtain ⟨inner, t, rfl, hinside, hleftover⟩ := run_within_iff.mp hwithin
  obtain ⟨path, content, rfl⟩ := exists_of_attributeInside hinside
  refine ⟨joint, inner, _, ⟨false, Tree.tokensOf path, Attribute.contentOf content⟩, hmark, rfl, rfl, rfl,
    fun rest => ?_⟩
  have hsign : operator "#" ⟨.mark '#' joint :: .group .bracket inner :: rest, r.leftover?⟩ =
      .ok (Tree.operator "#", ⟨.group .bracket inner :: rest, r.leftover?⟩) :=
    run_operator_iff.mpr ⟨_, rfl, rfl, rfl⟩
  have hbracket : within .bracket rec.attributeInside ⟨.group .bracket inner :: rest, r.leftover?⟩ =
      .ok ([Tree.part path, Tree.part content], ⟨rest, s'.leftover?⟩) :=
    run_within_iff.mpr ⟨inner, t, rfl, hinside, hleftover⟩
  have hgroup : group .bracket rec.attributeInside ⟨.group .bracket inner :: rest, r.leftover?⟩ =
      .ok ([.group .bracket [Tree.part path, Tree.part content]], ⟨rest, s'.leftover?⟩) :=
    run_bind_iff.mpr ⟨_, _, hbracket, rfl⟩
  rw [Recur.outerAttribute, run_bind hsign, run_bind hgroup]
  rfl

/-- What is read of attributes, and how it is read. -/
theorem exists_of_outerAttributes (h : rec.outerAttributes r = .ok (trees, r')) : ∃ c, r.tokens = c ++ r'.tokens ∧
    ReadsAttributes rec r.leftover? c (Attribute.ofTrees trees) r'.leftover? ∧ atOperator "#" r'.tokens = false := by
  have hruns := collectsWhile_of_run (fun hrun => ?_) h
  · clear h
    induction hruns with
    | stop hat => exact ⟨[], rfl, .nil _, hat⟩
    | @more r s r' found rest _ hrun _ _ ih =>
      obtain ⟨joint, inner, tree, a, htokens, rfl, ha, hinner, hexact⟩ := exists_of_outerAttribute hrun
      obtain ⟨c, hrest, hreads, hat⟩ := ih
      refine ⟨.mark '#' joint :: .group .bracket inner :: c, by rw [htokens, hrest]; rfl, ?_, hat⟩
      have hparsed : Attribute.ofTrees ([tree] ++ rest) = a :: Attribute.ofTrees rest := by
        simp [Attribute.ofTrees, ha]
      rw [hparsed]
      exact .cons hexact ha hinner hreads
  · obtain ⟨joint, inner, tree, a, htokens, -⟩ := exists_of_outerAttribute hrun
    simp only [htokens, List.length_cons]
    omega

namespace ReadsAttributes

/-- Attributes are read in front of anything that is none. -/
theorem run {rest : List Token} (h : ReadsAttributes rec o c attributes o') (hrest : atOperator "#" rest = false) :
    ∃ trees, rec.outerAttributes ⟨c ++ rest, o⟩ = .ok (trees, ⟨rest, o'⟩) ∧ Attribute.ofTrees trees = attributes := by
  suffices ∃ trees, CollectsWhile (atOperator "#") rec.outerAttribute ⟨c ++ rest, o⟩ trees ⟨rest, o'⟩ ∧
      Attribute.ofTrees trees = attributes by
    obtain ⟨trees, hruns, htrees⟩ := this
    exact ⟨trees, hruns.run, htrees⟩
  induction h with
  | nil o => exact ⟨[], .stop hrest, rfl⟩
  | @cons o o' o'' joint inner c tree a attributes hexact ha _ _ ih =>
    obtain ⟨trees, hruns, htrees⟩ := ih
    refine ⟨[tree] ++ trees, .more rfl (hexact _) ?_ hruns, by simp [Attribute.ofTrees, ha, ← htrees]⟩
    simp only [List.cons_append, List.length_cons, List.append_eq]
    omega

theorem breaks_eq (h : ReadsAttributes rec o c attributes o') : breaks c = 0 := by
  induction h with
  | nil => rfl
  | cons _ _ _ _ ih => simpa [breaks, isBreak] using ih

theorem length_eq (h : ReadsAttributes rec o c attributes o') :
    c.length = (attributes.flatMap Attribute.tokens).length := by
  induction h with
  | nil => rfl
  | cons _ _ hinner _ ih => simp [Attribute.tokens, hinner, ih]

end ReadsAttributes

/-- Options in brackets are read to their end, so that nothing of them is left over. -/
theorem run_options (joint : Bool) (delimiter : Delimiter) (options rest : List Token) (o : Option Delimiter) :
    ∃ trees, rec.outerAttribute
      ⟨.mark '#' joint :: .group .bracket [.word optionAttribute, .group delimiter options] :: rest, o⟩ =
        .ok (trees, ⟨rest, o⟩) := by
  cases o <;> exact ⟨_, rfl⟩

/-- Attributes can be read without options from what is written of the others. -/
theorem ReadsAttributes.withoutOptions (h : ReadsAttributes rec o c attributes o')
    (htokens : c = attributes.flatMap Attribute.tokens)
    (hoptions : ∀ a ∈ attributes, a.isNamed optionAttribute = true →
      ∃ delimiter tokens, a.content = .arguments delimiter tokens) :
    ReadsAttributes rec o ((attributes.filter (!·.isNamed optionAttribute)).flatMap Attribute.tokens)
      (attributes.filter (!·.isNamed optionAttribute)) o' := by
  induction h with
  | nil o => exact .nil o
  | @cons o o' o'' joint inner c tree a attributes hexact hparsed hinner hreads ih =>
    obtain ⟨hfirst, hoptions⟩ := List.forall_mem_cons.mp hoptions
    have ha : a.tokens = [.mark '#' false, .group .bracket (a.path ++ Attribute.contentTokens a.content)] := by
      simp [Attribute.tokens, hinner]
    simp only [List.flatMap_cons, ha, List.cons_append, List.nil_append, List.cons.injEq, Token.mark.injEq,
      Token.group.injEq] at htokens
    obtain ⟨⟨-, rfl⟩, ⟨-, rfl⟩, rfl⟩ := htokens
    have hrest := ih rfl hoptions
    cases hnamed : a.isNamed optionAttribute with
    | false =>
      rw [List.filter_cons_of_pos (by rw [hnamed]; rfl), List.flatMap_cons, ha]
      exact .cons hexact hparsed hinner hrest
    | true =>
      obtain ⟨delimiter, options, hcontent⟩ := hfirst hnamed
      have hpath : a.path = [.word optionAttribute] := by simpa [Attribute.isNamed] using hnamed
      obtain ⟨trees, hrun⟩ := @run_options rec false delimiter options [] o
      have hread := hexact []
      rw [hpath, hcontent] at hread
      obtain ⟨-, hleft⟩ := Prod.mk.inj (Except.ok.inj (hrun.symm.trans hread))
      obtain rfl : o = o' := congrArg Reading.leftover? hleft
      rw [List.filter_cons_of_neg (by simp [hnamed])]
      exact hrest

end Attributes

theorem exists_arguments_of_ofAttributes {attributes : List Attribute} {options : ParameterOptions}
    (h : ParameterOptions.ofAttributes attributes = .ok options) :
    ∀ a ∈ attributes, a.isNamed optionAttribute = true →
      ∃ delimiter tokens, a.content = .arguments delimiter tokens := by
  intro a ha hnamed
  have hmem : a ∈ attributes.filter (·.isNamed optionAttribute) := List.mem_filter.mpr ⟨ha, hnamed⟩
  rw [ParameterOptions.ofAttributes] at h
  generalize attributes.filter (·.isNamed optionAttribute) = named at h hmem
  generalize ({} : ParameterOptions) = start at h
  induction named generalizing start with
  | nil => cases hmem
  | cons first named ih =>
    obtain ⟨next, hfirst, hrest⟩ := bind_eq_ok_iff.mp h
    obtain rfl | hmem := List.mem_cons.mp hmem
    · obtain ⟨tokens, harguments, -⟩ := bind_eq_ok_iff.mp hfirst
      unfold ParameterOptions.argumentsOf at harguments
      split at harguments
      · next delimiter tokens hcontent => exact ⟨delimiter, tokens, hcontent⟩
      · cases harguments
      · cases harguments
    · exact ih hmem next hrest

/-! Names as patterns -/

/-- A name as a pattern. Its value may be changed if `isMutable`. -/
def nameTokens (isMutable : Bool) (name : Name) : List Token :=
  (if isMutable then [.word "mut"] else []) ++ [name.token]

theorem exists_of_boundName? {pattern : Tree} {name : Name} (h : boundName? pattern = some name) :
    ∃ isMutable, pattern = .node .binding (Tree.leaves (nameTokens isMutable name)) := by
  unfold boundName? at h
  split at h
  · exact ⟨false, by rw [Name.eq_text_of_ofWord? h]; rfl⟩
  · exact ⟨true, by rw [Name.eq_text_of_ofWord? h]; rfl⟩
  · cases h

theorem boundName?_nameTokens (isMutable : Bool) (name : Name) :
    boundName? (.node .binding (Tree.leaves (nameTokens isMutable name))) = some name := by
  cases isMutable <;> exact name.ofWord?_text

section NamedPatterns

variable (rec : Recur) (isMutable : Bool) (name : Name) (behind : List Token) (o : Option Delimiter)

/-- No reserved word is read in front of a name but the one that lets its value change. -/
theorem run_optionalWord_name {word : String} (hword : word ∈ reservedWords) (hmut : word ≠ "mut") :
    optionalWord word ⟨nameTokens isMutable name ++ behind, o⟩ =
      .ok ([], ⟨nameTokens isMutable name ++ behind, o⟩) := by
  have hat : atWord word (nameTokens isMutable name ++ behind) = false := by
    cases isMutable with
    | false => exact name.atWord_token word hword behind
    | true => simpa [nameTokens, atWord] using hmut.symm
  rw [optionalWord, run_bind (run_remaining _), hat]
  rfl

theorem run_optionalMut_name : optionalWord "mut" ⟨nameTokens isMutable name ++ behind, o⟩ =
    .ok (if isMutable then [.leaf (.word "mut")] else [], ⟨name.token :: behind, o⟩) := by
  cases isMutable with
  | false =>
    have hat : atWord "mut" (nameTokens false name ++ behind) = false :=
      name.atWord_token "mut" (by decide) behind
    rw [optionalWord, run_bind (run_remaining _), hat]
    rfl
  | true => rfl

theorem run_bindingPattern_name : rec.bindingPattern ⟨nameTokens isMutable name ++ .mark ':' false :: behind, o⟩ =
    .ok (.node .binding (Tree.leaves (nameTokens isMutable name)), ⟨.mark ':' false :: behind, o⟩) := by
  have hat : atOperator "@" (.mark ':' false :: behind) = false := rfl
  have hself : atWord "self" (name.token :: .mark ':' false :: behind) = false :=
    name.atWord_token "self" (by decide) _
  rw [Recur.bindingPattern, run_bind (run_optionalWord_name _ _ _ _ (by decide) (by decide)),
    run_bind (run_optionalMut_name _ _ _ _), run_bind (run_remaining _)]
  simp only [hself, Bool.false_eq_true, if_false]
  rw [run_bind (run_nameLeaf name), run_bind (run_remaining _)]
  simp only [hat, Bool.false_eq_true, if_false]
  cases isMutable <;> rfl

/-- A name in front of a colon is read as a pattern. -/
theorem run_pattern_name : rec.pattern ⟨nameTokens isMutable name ++ .mark ':' false :: behind, o⟩ =
    .ok (.node .binding (Tree.leaves (nameTokens isMutable name)), ⟨.mark ':' false :: behind, o⟩) := by
  rw [← run_bindingPattern_name rec, Recur.pattern, run_bind (run_remaining _)]
  cases isMutable with
  | true => rfl
  | false =>
    have hno : ∀ word, word ∈ reservedWords → atWord word (name.token :: .mark ':' false :: behind) = false :=
      fun word hword => name.atWord_token word hword _
    have hname : atName (name.token :: .mark ':' false :: behind) = true := name.text_isName
    have hbehind : (atOperator "::" (.mark ':' false :: behind) || atOperator "!" (.mark ':' false :: behind) ||
      atOperator ".." (.mark ':' false :: behind) || atGroup .brace (.mark ':' false :: behind) ||
        atGroup .parenthesis (.mark ':' false :: behind)) = false := rfl
    have hcolons : atOperator "::" (name.token :: .mark ':' false :: behind) = false := rfl
    have hless : atOperator "<" (name.token :: .mark ':' false :: behind) = false := rfl
    have hminus : atOperator "-" (name.token :: .mark ':' false :: behind) = false := rfl
    simp only [nameTokens, Bool.false_eq_true, if_false, List.nil_append, List.cons_append, List.drop_one,
      List.tail_cons, hname, hbehind, hcolons, hless, hminus, name.atLiteral_token, atOneOf, List.any_cons,
      List.any_nil, hno "self" (by decide), hno "Self" (by decide), hno "super" (by decide), hno "crate" (by decide),
      hno "_" (by decide), hno "box" (by decide), hno "const" (by decide), Bool.and_false, Bool.or_false, Bool.or_true,
      if_true, Bool.false_and]

/-- What begins with a name is no receiver. -/
theorem run_receiver_name : attempt rec.receiver ⟨nameTokens isMutable name ++ behind, o⟩ =
    .ok (none, ⟨nameTokens isMutable name ++ behind, o⟩) := by
  have hself : atWord "self" (name.token :: behind) = false := name.atWord_token "self" (by decide) behind
  have hsign : atOperator "&" (nameTokens isMutable name ++ behind) = false := by cases isMutable <;> rfl
  have hnone : receiverHead ⟨nameTokens isMutable name ++ behind, o⟩ = .error (.misplaced "expected `self`" false) := by
    rw [receiverHead, run_bind (run_remaining _)]
    simp only [hsign, Bool.false_eq_true, if_false]
    rw [run_bind (run_pure _ _), run_bind (run_optionalMut_name _ _ _ _)]
    refine run_bind_error ?_
    rw [word, run_bind (run_remaining _), hself]
    rfl
  rw [attempt, Recur.receiver, run_bind_error hnone]

end NamedPatterns

/-! Parameters -/

/-- A parameter with a pattern and a type is read part by part, and a comma behind it if `hasComma`. -/
inductive ReadsTyped (rec : Recur) : Reading → TypedInput → Bool → Reading → Prop
  | intro {r r₁ r₂ r₃ r₄ s : Reading} {c : List Token} {attributes : List Attribute} {pattern type : Tree}
    {colon comma : Trees} :
    r.tokens = c ++ r₁.tokens → ReadsAttributes rec r.leftover? c attributes r₁.leftover? →
      rec .pattern r₁ = .ok (pattern, r₂) → operator ":" r₂ = .ok (colon, r₃) → atOperator "..." r₃.tokens = false →
      rec.anyType r₃ = .ok (type, r₄) → Recur.optionalComma r₄ = .ok (comma, s) →
      ReadsTyped rec r ⟨attributes, pattern.tokens, boundName? pattern, type.tokens⟩ (!comma.isEmpty) s

section Inputs

variable {rec : Recur} {r s : Reading} {isFirst hasComma : Bool} {x : ReadInput} {typed : TypedInput} {comma : Trees}

theorem Parser.run_optionalComma (h : Recur.optionalComma r = .ok (comma, s)) :
    (r.tokens = [] ∧ comma = [] ∧ r = s) ∨
      ∃ joint, r.tokens = .mark ',' joint :: s.tokens ∧ comma = Tree.operator "," ∧ r.leftover? = s.leftover? := by
  have hread := run_remaining_bind_iff.mp h
  split at hread
  · next hempty =>
    obtain ⟨rfl, rfl⟩ := run_pure_iff.mp hread
    exact Or.inl ⟨List.isEmpty_iff.mp hempty, rfl, rfl⟩
  · obtain ⟨rest, hcomma, rfl, rfl⟩ := run_operator_iff.mp hread
    obtain ⟨joint, hmark⟩ : ∃ joint, r.tokens = .mark ',' joint :: rest := exists_mark_of_behindOperator? hcomma
    exact Or.inr ⟨joint, hmark, rfl, rfl⟩

theorem content_of_variadicInput {head : Trees} (h : Recur.variadicInput head r = .ok (x, s)) :
    ∃ tokens, x.content = .inr tokens ∧ tokens ≠ [] := by
  obtain ⟨dots, s₁, hdots, h⟩ := run_bind_iff.mp h
  obtain ⟨comma, s₂, -, h⟩ := run_bind_iff.mp h
  obtain ⟨rfl, rfl⟩ := run_pure_iff.mp h
  obtain ⟨rest, -, rfl, -⟩ := run_operator_iff.mp hdots
  exact ⟨_, rfl, by simp [Tree.tokensOf_append, Tree.operator, Tree.tokensOf_leaves, Token.operator, Token.operatorOf]⟩

/-- A parameter that is a name, and takes one value. -/
def ReadInput.IsNamed (x : ReadInput) : Prop :=
  x.variadic = [] ∧ ∀ input ∈ x.input?, input.name?.isSome = true

theorem not_isNamed_of_variadicInput {head : Trees} (h : Recur.variadicInput head r = .ok (x, s)) : ¬x.IsNamed := by
  obtain ⟨tokens, hcontent, hne⟩ := content_of_variadicInput h
  rintro ⟨hvariadic, -⟩
  rw [ReadInput.variadic, hcontent] at hvariadic
  exact hne hvariadic

/-- A parameter that is a name with a type has been read part by part. -/
theorem exists_readsTyped_of_input (h : rec.input isFirst r = .ok (x, s)) (hx : x.IsNamed) :
    ∃ typed, x.content = .inl (.typed typed) ∧ ReadsTyped rec r typed x.hasComma s := by
  obtain ⟨attributes, r₁, hattributes, h⟩ := run_bind_iff.mp h
  obtain ⟨c, htokens, hreads, -⟩ := exists_of_outerAttributes hattributes
  have h := run_remaining_bind_iff.mp h
  split at h
  · exact absurd hx (not_isNamed_of_variadicInput h)
  obtain ⟨self?, r₂, hself, h⟩ := run_bind_iff.mp h
  cases self? with
  | some self =>
    dsimp only at h
    split at h
    · cases h
    · obtain ⟨comma, s', -, h⟩ := run_bind_iff.mp h
      obtain ⟨rfl, rfl⟩ := run_pure_iff.mp h
      cases hx.2 _ rfl
  | none =>
    obtain rfl : r₁ = r₂ := by
      simp only [attempt] at hself
      split at hself <;> cases hself
      rfl
    have h := run_remaining_bind_iff.mp h
    split at h
    · obtain ⟨type, s', -, h⟩ := run_bind_iff.mp h
      obtain ⟨comma, s'', -, h⟩ := run_bind_iff.mp h
      obtain ⟨rfl, rfl⟩ := run_pure_iff.mp h
      cases hx.2 _ rfl
    · obtain ⟨pattern, r₂, hpattern, h⟩ := run_bind_iff.mp h
      obtain ⟨colon, r₃, hcolon, h⟩ := run_bind_iff.mp h
      have h := run_remaining_bind_iff.mp h
      split at h
      · exact absurd hx (not_isNamed_of_variadicInput h)
      · next hdots =>
        obtain ⟨type, r₄, htype, h⟩ := run_bind_iff.mp h
        obtain ⟨comma, s', hcomma, h⟩ := run_bind_iff.mp h
        obtain ⟨rfl, rfl⟩ := run_pure_iff.mp h
        exact ⟨_, rfl, .intro htokens hreads hpattern hcolon (by simpa using hdots) htype hcomma⟩

def commaTokens (hasComma : Bool) : List Token :=
  if hasComma then [.mark ',' false] else []

/-- What is written of a parameter, with the comma behind it. -/
def TypedInput.written (typed : TypedInput) (hasComma : Bool) : List Token :=
  (Input.typed typed).tokens ++ commaTokens hasComma

def TypedInput.withoutOptions (typed : TypedInput) : TypedInput :=
  { typed with attributes := typed.attributes.filter (!·.isNamed optionAttribute) }

theorem ReadsTyped.keeps (hrec : IsLocalRecur rec) (h : ReadsTyped rec r typed hasComma s) :
    ∃ c, r.tokens = c ++ s.tokens ∧ c ≠ [] ∧ Keeps c (Tree.leaves (typed.written hasComma)) := by
  cases h with
  | @intro r₁ r₂ r₃ r₄ _ c attributes pattern type colon comma htokens hreads hpattern hcolon _ htype hcomma =>
    have hattributes : Keeps c (Tree.leaves (attributes.flatMap Attribute.tokens)) :=
      Keeps.of_no_breaks hreads.breaks_eq (by rw [Tree.tokensOf_leaves, (Attribute.breaks_tokens attributes).2])
    obtain ⟨c₁, hr₁, hpattern⟩ := hrec.pattern.reads hpattern
    obtain ⟨c₂, hr₂, rfl, hcolon⟩ := (IsLocal.operator_eq (by decide)).reads hcolon
    obtain ⟨c₃, hr₃, htype⟩ := (hrec.type true).reads htype
    obtain ⟨c₄, hr₄, hcomma⟩ : ∃ c₄, r₄.tokens = c₄ ++ s.tokens ∧
        Keeps c₄ (Tree.leaves (commaTokens !comma.isEmpty)) := by
      obtain ⟨-, rfl, rfl⟩ | ⟨joint, hmark, rfl, -⟩ := run_optionalComma hcomma
      · exact ⟨[], rfl, Keeps.nil⟩
      · exact ⟨[.mark ',' joint], hmark, Nat.le_refl _, fun _ => Nat.le_refl _⟩
    refine ⟨c ++ (c₁ ++ (c₂ ++ (c₃ ++ c₄))), ?_, by simp [hpattern.1], ?_⟩
    · rw [htokens, hr₁, hr₂, hr₃, hr₄]
      simp
    · refine (hattributes.append (hpattern.2.append (hcolon.2.append (htype.2.append hcomma)))).congr ?_
      simp only [Tree.tokensOf_append, Tree.tokensOf_leaves, Tree.tokensOf_singleton, TypedInput.written, Input.tokens,
        List.append_assoc]
      rfl

/-- The rule of patterns is that of the grammar. -/
def HasPatterns (rec : Recur) : Prop :=
  ∃ inner : Recur, rec .pattern = inner.pattern

theorem atOperator_sharp_name (isMutable : Bool) (name : Name) (behind : List Token) :
    atOperator "#" (nameTokens isMutable name ++ behind) = false := by
  cases isMutable <;> rfl

/-- A name with a type is read from what is written of it, in front of `behind`. -/
inductive ReadsNamed (rec : Recur) (o : Option Delimiter) : TypedInput → Bool → List Token → Option Delimiter → Prop
  | intro {o₁ o₂ : Option Delimiter} {attributes : List Attribute} {isMutable hasComma : Bool} {name : Name}
    {type : Tree} {behind : List Token} : ReadsAttributes rec o (attributes.flatMap Attribute.tokens) attributes o₁ →
      atOperator "..." (type.tokens ++ (commaTokens hasComma ++ behind)) = false →
        rec.anyType ⟨type.tokens ++ (commaTokens hasComma ++ behind), o₁⟩ =
          .ok (type, ⟨commaTokens hasComma ++ behind, o₂⟩) →
          (hasComma = false → behind = []) →
            ReadsNamed rec o ⟨attributes, nameTokens isMutable name, some name, type.tokens⟩ hasComma behind o₂

namespace ReadsNamed

variable {o o' : Option Delimiter} {behind : List Token}

theorem run (hpatterns : HasPatterns rec) (h : ReadsNamed rec o typed hasComma behind o') (isFirst : Bool) :
    ∃ inside, rec.input isFirst ⟨typed.written hasComma ++ behind, o⟩ =
      .ok (⟨.inl (.typed typed), inside, hasComma⟩, ⟨behind, o'⟩) := by
  cases h with
  | @intro o₁ _ attributes isMutable _ name type _ hreads hdots htype hend =>
    obtain ⟨inner, hinner⟩ := hpatterns
    generalize htokens : type.tokens ++ (commaTokens hasComma ++ behind) = tokens at hdots htype
    obtain ⟨trees, hattributes, htrees⟩ := hreads.run (atOperator_sharp_name isMutable name (.mark ':' false :: tokens))
    have hwritten :
        TypedInput.written ⟨attributes, nameTokens isMutable name, some name, type.tokens⟩ hasComma ++ behind =
        attributes.flatMap Attribute.tokens ++ (nameTokens isMutable name ++ .mark ':' false :: tokens) := by
      simp [TypedInput.written, Input.tokens, ← htokens]
    have hvariadic : atOperator "..." (nameTokens isMutable name ++ .mark ':' false :: tokens) = false := by
      cases isMutable <;> rfl
    have halone : (atName (nameTokens isMutable name ++ .mark ':' false :: tokens) &&
        atOperator "<" ((nameTokens isMutable name ++ .mark ':' false :: tokens).drop 1)) = false := by
      cases isMutable with
      | false => exact Bool.and_false _
      | true => rfl
    have hcolon : operator ":" ⟨.mark ':' false :: tokens, o₁⟩ = .ok (Tree.operator ":", ⟨tokens, o₁⟩) :=
      run_operator_iff.mpr ⟨tokens, rfl, rfl, rfl⟩
    have hpattern := run_pattern_name inner isMutable name tokens o₁
    rw [← hinner] at hpattern
    have hcomma : Recur.optionalComma ⟨commaTokens hasComma ++ behind, o'⟩ =
        .ok (if hasComma then Tree.operator "," else [], ⟨behind, o'⟩) := by
      cases hasComma with
      | true => rfl
      | false =>
        obtain rfl := hend rfl
        rfl
    refine ⟨trees ++ [.node .binding (Tree.leaves (nameTokens isMutable name)), type], ?_⟩
    rw [hwritten, Recur.input, run_bind hattributes, run_bind (run_remaining _)]
    simp only [hvariadic, Bool.false_eq_true, if_false]
    rw [run_bind (run_receiver_name _ _ _ _ _)]
    dsimp only
    rw [Recur.typedInput, run_bind (run_remaining _)]
    simp only [halone, Bool.false_eq_true, if_false]
    rw [run_bind hpattern, run_bind hcolon, run_bind (run_remaining _)]
    simp only [hdots, Bool.false_eq_true, if_false]
    rw [run_bind htype, run_bind hcomma, boundName?_nameTokens]
    simp only [Tree.tokens, Tree.tokensOf_leaves, htrees]
    cases hasComma <;> rfl

/-- Without its options it is read from what is written without them, whatever stands behind the comma. -/
theorem withoutOptions {options : ParameterOptions} (hrec : IsLocalRecur rec)
    (h : ReadsNamed rec o typed hasComma behind o')
    (hoptions : ParameterOptions.ofAttributes typed.attributes = .ok options) {behind' : List Token}
    (hend : hasComma = false → behind' = []) : ReadsNamed rec o typed.withoutOptions hasComma behind' o' := by
  cases h with
  | @intro o₁ _ attributes isMutable _ name type _ hreads hdots htype hend' =>
    have hfree := hreads.withoutOptions rfl (exists_arguments_of_ofAttributes hoptions)
    cases hasComma with
    | false =>
      obtain rfl := hend rfl
      obtain rfl := hend' rfl
      exact .intro hfree hdots htype hend
    | true =>
      have halike : Alike (commaTokens true ++ behind) (commaTokens true ++ behind') := .comma behind behind'
      exact .intro hfree (halike.atOperator ▸ hdots) ((hrec.type true).swap halike htype) hend

end ReadsNamed

/-- A name with a type that is read where it is written is read from what is written of it. -/
theorem ReadsTyped.named {trees : Trees} {name : Name} (hrec : IsLocalRecur rec) (hpatterns : HasPatterns rec)
    (h : ReadsTyped rec r typed hasComma s) (hname : typed.name? = some name)
    (htokens : r.tokens = typed.written hasComma ++ Tree.tokensOf trees) (hkeeps : Keeps s.tokens trees)
    (hend : hasComma = false → trees = []) :
    s.tokens = Tree.tokensOf trees ∧ ReadsNamed rec r.leftover? typed hasComma s.tokens s.leftover? := by
  cases h with
  | @intro r₁ r₂ r₃ r₄ _ c attributes pattern type colon comma hread hreads hpattern hcolon hdots htype hcomma =>
    obtain ⟨isMutable, rfl⟩ := exists_of_boundName? hname
    obtain ⟨inner, hinner⟩ := hpatterns
    have hpatternTokens :
        (Tree.node .binding (Tree.leaves (nameTokens isMutable name))).tokens = nameTokens isMutable name :=
      Tree.tokensOf_leaves
    rw [hpatternTokens] at htokens ⊢
    rw [boundName?_nameTokens]
    -- The attributes and the name are read from their own tokens.
    generalize hbehind : type.tokens ++ (commaTokens (!comma.isEmpty) ++ Tree.tokensOf trees) = behind
    have hown : c ++ r₁.tokens = attributes.flatMap Attribute.tokens ++
        (nameTokens isMutable name ++ .mark ':' false :: behind) := by
      rw [← hread, htokens, ← hbehind]
      simp [TypedInput.written, Input.tokens]
    obtain ⟨rfl, hr₁⟩ := List.append_inj hown hreads.length_eq
    obtain ⟨tokens₁, o₁⟩ := r₁
    subst hr₁
    rw [hinner, run_pattern_name] at hpattern
    obtain ⟨-, rfl⟩ := Prod.mk.inj (Except.ok.inj hpattern)
    obtain ⟨_, htail, rfl, rfl⟩ := run_operator_iff.mp hcolon
    obtain rfl := Option.some.inj htail
    obtain ⟨read, hr₃, htakes⟩ := (hrec.type true).reads htype
    -- The type is read up to its comma.
    obtain ⟨tokens₄, o₄⟩ := r₄
    obtain ⟨rfl, rfl, rfl⟩ | ⟨joint, rfl, rfl, rfl⟩ := run_optionalComma hcomma
    · obtain rfl := hend rfl
      subst hbehind
      exact ⟨rfl, .intro hreads hdots htype fun _ => rfl⟩
    · have hcomma : read ++ .mark ',' joint :: s.tokens =
          Tree.tokensOf [type] ++ .mark ',' false :: Tree.tokensOf trees := by
        rw [Tree.tokensOf_singleton]
        exact hr₃.symm.trans hbehind.symm
      obtain ⟨-, hjoint, hs⟩ := htakes.2.split hkeeps rfl rfl hcomma
      obtain rfl : joint = false := (Token.mark.inj hjoint).2
      rw [← hs] at hbehind
      subst hbehind
      exact ⟨hs, .intro hreads hdots htype nofun⟩

/-! Lists of parameters -/

def writtenInputs (inputs : List (TypedInput × Bool)) : List Token :=
  inputs.flatMap fun x => x.1.written x.2

/-- Parameters are read one after another up to the end. -/
inductive ReadsInputs (rec : Recur) : Reading → List (TypedInput × Bool) → Option Delimiter → Prop
  | nil (o : Option Delimiter) : ReadsInputs rec ⟨[], o⟩ [] o
  | cons {r s : Reading} {typed : TypedInput} {hasComma : Bool} {inputs : List (TypedInput × Bool)}
    {o' : Option Delimiter} :
    ReadsTyped rec r typed hasComma s → ReadsInputs rec s inputs o' → ReadsInputs rec r ((typed, hasComma) :: inputs) o'

/-- Names with types are read one after another from what is written of them. -/
inductive ReadsNames (rec : Recur) : Option Delimiter → List (TypedInput × Bool) → Option Delimiter → Prop
  | nil (o : Option Delimiter) : ReadsNames rec o [] o
  | cons {o o' o'' : Option Delimiter} {typed : TypedInput} {hasComma : Bool} {inputs : List (TypedInput × Bool)} :
    ReadsNamed rec o typed hasComma (writtenInputs inputs) o' → ReadsNames rec o' inputs o'' →
      ReadsNames rec o ((typed, hasComma) :: inputs) o''

/-- A parameter as it is read, and the same without the trees in it. -/
def ReadInput.Is (x : ReadInput) (y : TypedInput × Bool) : Prop :=
  x.content = .inl (.typed y.1) ∧ x.hasComma = y.2

section Lists

variable {o o' : Option Delimiter} {inputs : List (TypedInput × Bool)} {found : List ReadInput}

theorem ReadsTyped.tokens_eq_nil (h : ReadsTyped rec r typed false s) : s.tokens = [] := by
  generalize hcomma : false = hasComma at h
  cases h with
  | intro _ _ _ _ _ _ hread =>
    obtain ⟨hempty, rfl, rfl⟩ | ⟨-, -, rfl, -⟩ := run_optionalComma hread
    · exact hempty
    · cases hcomma

theorem ReadsInputs.keeps (hrec : IsLocalRecur rec) (h : ReadsInputs rec r inputs o') :
    Keeps r.tokens (Tree.leaves (writtenInputs inputs)) := by
  induction h with
  | nil => exact Keeps.nil
  | @cons r s typed hasComma inputs o' htyped _ ih =>
    obtain ⟨c, htokens, -, hc⟩ := htyped.keeps hrec
    rw [htokens]
    simpa [writtenInputs, Tree.leaves] using hc.append ih

theorem ReadsInputs.eq_nil (hrec : IsLocalRecur rec) (h : ReadsInputs rec r inputs o') (hempty : r.tokens = []) :
    inputs = [] := by
  cases h with
  | nil => rfl
  | cons htyped =>
    obtain ⟨c, htokens, hne, -⟩ := htyped.keeps hrec
    simp [hne, htokens] at hempty

/-- The last parameter at most has no comma behind it. -/
theorem ReadsInputs.isChain (hrec : IsLocalRecur rec) (h : ReadsInputs rec r inputs o') :
    inputs.IsChain fun x _ => x.2 = true := by
  induction h with
  | nil => exact .nil
  | @cons r s typed hasComma inputs o' htyped hrest ih =>
    cases inputs with
    | nil => exact .singleton _
    | cons next inputs =>
      refine List.isChain_cons_cons.mpr ⟨?_, ih⟩
      cases hasComma with
      | true => rfl
      | false => cases hrest.eq_nil hrec htyped.tokens_eq_nil

/-- What is written of parameters that are separated by commas is written as a list. -/
theorem list_eq_written (h : inputs.IsChain fun x _ => x.2 = true) :
    Input.list (inputs.getLast?.any (·.2)) (inputs.map fun x => .typed x.1) = writtenInputs inputs := by
  induction inputs with
  | nil => rfl
  | cons x inputs ih =>
    cases inputs with
    | nil => simp [Input.list, writtenInputs, TypedInput.written, commaTokens]
    | cons next inputs =>
      obtain ⟨hcomma, hrest⟩ := List.isChain_cons_cons.mp h
      have hlist : Input.list ((x :: next :: inputs).getLast?.any (·.2)) ((x :: next :: inputs).map fun x =>
        .typed x.1) =
          (Input.typed x.1).tokens ++ .mark ',' false ::
            Input.list ((next :: inputs).getLast?.any (·.2)) ((next :: inputs).map fun x => .typed x.1) := rfl
      rw [hlist, ih hrest]
      simp [writtenInputs, TypedInput.written, commaTokens, hcomma]

/-- Where the parameters are read from what is written of them, each one is. -/
theorem ReadsInputs.names (hrec : IsLocalRecur rec) (hpatterns : HasPatterns rec) (h : ReadsInputs rec r inputs o')
    (hnames : ∀ x ∈ inputs, x.1.name?.isSome = true) (htokens : r.tokens = writtenInputs inputs) :
    ReadsNames rec r.leftover? inputs o' := by
  induction h with
  | nil => exact .nil _
  | @cons r s typed hasComma inputs o' htyped hrest ih =>
    obtain ⟨hname, hnames⟩ := List.forall_mem_cons.mp hnames
    obtain ⟨name, hname⟩ := Option.isSome_iff_exists.mp hname
    have hend : hasComma = false → Tree.leaves (writtenInputs inputs) = [] := by
      rintro rfl
      rw [hrest.eq_nil hrec htyped.tokens_eq_nil]
      rfl
    obtain ⟨hs, hnamed⟩ :=
      htyped.named hrec hpatterns hname (by rw [Tree.tokensOf_leaves, htokens]; rfl) (hrest.keeps hrec) hend
    rw [Tree.tokensOf_leaves] at hs
    rw [hs] at hnamed
    exact .cons hnamed (ih hnames hs)

theorem writtenInputs_eq_nil_iff : writtenInputs inputs = [] ↔ inputs = [] := by
  cases inputs <;> simp [writtenInputs, TypedInput.written, Input.tokens]

theorem ReadsNamed.behind_eq_nil {behind : List Token} (h : ReadsNamed rec o typed false behind o') : behind = [] := by
  generalize hcomma : false = hasComma at h
  cases h with
  | intro _ _ _ hend => exact hend hcomma.symm

theorem ReadsNames.withoutOptions (hrec : IsLocalRecur rec) (h : ReadsNames rec o inputs o')
    (hoptions : ∀ x ∈ inputs, ∃ options, ParameterOptions.ofAttributes x.1.attributes = .ok options) :
    ReadsNames rec o (inputs.map fun x => (x.1.withoutOptions, x.2)) o' := by
  induction h with
  | nil => exact .nil _
  | @cons o o' o'' typed hasComma inputs hnamed _ ih =>
    obtain ⟨⟨options, hoptions⟩, hall⟩ := List.forall_mem_cons.mp hoptions
    refine .cons (hnamed.withoutOptions hrec hoptions ?_) (ih hall)
    rintro rfl
    rw [writtenInputs_eq_nil_iff.mp hnamed.behind_eq_nil]
    rfl

theorem ReadsNames.run (hpatterns : HasPatterns rec) (h : ReadsNames rec o inputs o') :
    ∃ found, rec.inputs ⟨writtenInputs inputs, o⟩ = .ok (found, ⟨[], o'⟩) ∧ List.Forall₂ ReadInput.Is found inputs := by
  suffices ∀ total : Nat, ∃ found, Collects (do
      let tokens ← remaining
      if tokens.isEmpty then return ([], false)
      let input ← rec.input (tokens.length == total)
      return ([input], input.input?.isSome)) ⟨writtenInputs inputs, o⟩ found ⟨[], o'⟩ ∧
        List.Forall₂ ReadInput.Is found inputs by
    obtain ⟨found, hruns, his⟩ := this (writtenInputs inputs).length
    exact ⟨found, hruns.run, his⟩
  intro total
  induction h with
  | nil o => exact ⟨[], .last rfl, .nil⟩
  | @cons o o' o'' typed hasComma inputs hnamed _ ih =>
    obtain ⟨found, hruns, his⟩ := ih
    have hwritten : writtenInputs ((typed, hasComma) :: inputs) = typed.written hasComma ++ writtenInputs inputs := rfl
    have hne : typed.written hasComma ++ writtenInputs inputs ≠ [] := by simp [TypedInput.written, Input.tokens]
    obtain ⟨inside, hrun⟩ := hnamed.run hpatterns ((typed.written hasComma ++ writtenInputs inputs).length == total)
    refine ⟨[⟨.inl (.typed typed), inside, hasComma⟩] ++ found, .more ?_ ?_ hruns, .cons ⟨rfl, rfl⟩ his⟩
    · rw [hwritten, run_bind (run_remaining _)]
      simp only [List.isEmpty_eq_false_iff.mpr hne, Bool.false_eq_true, if_false]
      rw [run_bind hrun]
      rfl
    · have hpos : 0 < (typed.written hasComma).length :=
        List.length_pos_iff.mpr (by simp [TypedInput.written, Input.tokens])
      simp only [hwritten, List.length_append]
      omega

/-- Parameters that are all names have been read one after another. -/
theorem exists_readsInputs_of_run (hrec : IsLocalRecur rec) (h : rec.inputs r = .ok (found, s))
    (hnames : ∀ x ∈ found, x.IsNamed) :
    ∃ inputs, ReadsInputs rec r inputs s.leftover? ∧ s.tokens = [] ∧ List.Forall₂ ReadInput.Is found inputs := by
  replace h := run_remaining_bind_iff.mp h
  generalize r.tokens.length = total at h
  -- A step finds nothing at the end, and reads a name with its type before it.
  have hstep : ∀ {r s : Reading} {found : List ReadInput} {more : Bool}, (do
      let tokens ← remaining
      if tokens.isEmpty then return ([], false)
      let input ← rec.input (tokens.length == total)
      return ([input], input.input?.isSome) : Parser (List ReadInput × Bool)) r = .ok ((found, more), s) →
      (∀ x ∈ found, x.IsNamed) → (more = false ∧ found = [] ∧ r.tokens = [] ∧ r = s) ∨
        (more = true ∧ ∃ x typed, found = [x] ∧ x.content = .inl (.typed typed) ∧
          ReadsTyped rec r typed x.hasComma s) := by
    intro r s found more hrun hnames
    have hrun := run_remaining_bind_iff.mp hrun
    split at hrun
    · next hempty =>
      obtain ⟨heq, rfl⟩ := run_pure_iff.mp hrun
      obtain ⟨rfl, rfl⟩ := Prod.mk.inj heq
      exact Or.inl ⟨rfl, rfl, List.isEmpty_iff.mp hempty, rfl⟩
    · obtain ⟨x, s', hinput, hrun⟩ := run_bind_iff.mp hrun
      obtain ⟨heq, rfl⟩ := run_pure_iff.mp hrun
      obtain ⟨rfl, rfl⟩ := Prod.mk.inj heq
      obtain ⟨typed, hcontent, htyped⟩ := exists_readsTyped_of_input hinput (hnames x (by simp))
      exact Or.inr ⟨by simp [ReadInput.input?, hcontent], x, typed, rfl, hcontent, htyped⟩
  have hruns := collects_of_run_where (fun hrun hnames => ?_) h hnames
  · clear h
    induction hruns with
    | @last r _ _ hrun =>
      obtain ⟨-, rfl, hempty, rfl⟩ | ⟨hmore, -⟩ := hstep hrun hnames
      · obtain ⟨tokens, o⟩ := r
        subst hempty
        exact ⟨[], .nil o, rfl, .nil⟩
      · cases hmore
    | more hrun _ _ ih =>
      obtain ⟨hfirst, hrest⟩ := List.forall_mem_append.mp hnames
      obtain ⟨hmore, -⟩ | ⟨-, x, typed, rfl, hcontent, htyped⟩ := hstep hrun hfirst
      · cases hmore
      · obtain ⟨inputs, hinputs, hempty, his⟩ := ih hrest
        exact ⟨(typed, x.hasComma) :: inputs, .cons htyped hinputs, hempty, .cons ⟨hcontent, rfl⟩ his⟩
  · obtain ⟨hmore, -⟩ | ⟨-, x, typed, -, -, htyped⟩ := hstep hrun hnames
    · cases hmore
    · obtain ⟨c, htokens, hne, -⟩ := htyped.keeps hrec
      have hpos := List.length_pos_iff.mpr hne
      rw [htokens, List.length_append]
      omega

end Lists

end Inputs

end CommandBinding.Source
