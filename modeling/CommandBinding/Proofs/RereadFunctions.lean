import CommandBinding.Proofs.RereadInputs

/-!
Functions that are read back. Where a function is read from its own tokens, it is read without the options of its
parameters from what is written without them.
-/
namespace CommandBinding.Source

open CommandBinding.Source.Parser

/-! What stands in front of the parameters -/

/-- What is read behind the word `pub`, where `tokens` stand in front. -/
def visibleBehind (head : Trees) (tokens : List Token) : Parser Trees := do
  match tokens with
  | .group .parenthesis inner :: _ =>
    if atOneOf ["crate", "self", "super"] inner && inner.length == 1 then return head ++ (← anyGroup)
    else if atWord "in" inner then
      return head ++ (← group .parenthesis do
        let between ← word "in"
        return between ++ (← plainPath))
    else return head
  | _ => return head

theorem visibility_eq : visibility = (do
    if !atWord "pub" (← remaining) then return []
    let head ← anyToken
    visibleBehind head (← remaining)) :=
  rfl

theorem isLocal_visibleBehind (head : Trees) (tokens : List Token) {c : List Token} (hhead : Keeps c head) :
    IsLocal (visibleBehind head tokens) fun c' visible => Keeps (c ++ c') visible := by
  unfold visibleBehind
  split
  · refine IsLocal.ite ?_ (IsLocal.ite ?_ (IsLocal.pure (by simpa using hhead)))
    · exact IsLocal.anyGroup.bind fun group c' hgroup => IsLocal.pure (by simpa using hhead.append hgroup.2)
    · exact (IsLocal.group _ _).bind fun group c' hgroup => IsLocal.pure (by simpa using hhead.append hgroup.2)
  · exact IsLocal.pure (by simpa using hhead)

/-- A visibility looks into the group behind it, so something else has to be read in between. -/
theorem IsLocal.behind_visibility {β : Type} {next : Trees → Parser β} {R : List Token → β → Prop}
    (hnext : ∀ visible c, Keeps c visible → IsLocal (next visible) fun c' value => c' ≠ [] ∧ R (c ++ c') value) :
    IsLocal (visibility >>= next) R := by
  refine IsLocal.congr (q := do
    if !atWord "pub" (← remaining) then next []
    else do
      let head ← Parser.anyToken
      let tokens ← remaining
      let visible ← visibleBehind head tokens
      next visible) ?_ fun r => ?_
  · refine IsLocal.test (fun h => by rw [h.atWord]) ?_ ?_
    · exact (hnext [] [] Keeps.nil).mono fun c value h => h.2
    refine IsLocal.anyToken.bind fun head c ⟨hhead, _⟩ => ?_
    have hinside : IsLocal (remaining >>= fun tokens => visibleBehind head tokens >>= next)
        fun c' value => c' ≠ [] ∧ R (c ++ c') value := by
      refine IsLocal.look_inside (fun c' value h => h.1) (fun {token} _ _ _ _ => ?_) fun tokens => ?_
      · cases token with
        | group delimiter inner => cases delimiter <;> rfl
        | _ => rfl
      · refine (isLocal_visibleBehind head tokens hhead.2).bind fun visible c' hvisible =>
          (hnext visible _ hvisible).mono ?_
        intro c'' value h
        exact ⟨by simp [h.1], by simpa using h.2⟩
    exact hinside.mono fun c' value h => h.2
  · rw [visibility_eq, bind_assoc, run_bind (run_remaining r), run_bind (run_remaining r)]
    split
    · rfl
    · rw [bind_assoc]
      rfl

/-- What a signature holds in front of its parameters. -/
structure SignatureHead where
  constness : Trees
  asyncness : Trees
  unsafety : Trees
  convention : Trees
  name : Name
  generics : List GenericTree

def SignatureHead.tokens (head : SignatureHead) : List Token :=
  Signature.optionalWord "const" (!head.constness.isEmpty) ++
    Signature.optionalWord "async" (!head.asyncness.isEmpty) ++
    Signature.optionalWord "unsafe" (!head.unsafety.isEmpty) ++ Tree.tokensOf head.convention ++
    [.word "fn", .word head.name.text] ++ GenericParameter.list ((head.generics.map (·.parameter)).map (·.withDefault))

/-- A signature of which all parts are read. -/
def SignatureHead.signature (head : SignatureHead) (inputs : List ReadInput) (output clause : Trees) : Signature where
  isConst := !head.constness.isEmpty
  isAsync := !head.asyncness.isEmpty
  isUnsafe := !head.unsafety.isEmpty
  linkage := Tree.tokensOf head.convention
  name := head.name
  generics := head.generics.map (·.parameter)
  inputs := inputs.filterMap (·.input?)
  endsInComma := (inputs.filter (·.input?.isSome)).getLast?.any (·.hasComma)
  variadic := inputs.flatMap (·.variadic)
  output? := output.getLast?.map Output.ofTree
  bounds := Tree.tokensOf clause

namespace Recur

variable (rec : Recur)

def signatureHead : Parser SignatureHead := do
  let constness ← optionalWord "const"
  let asyncness ← optionalWord "async"
  let unsafety ← optionalWord "unsafe"
  let convention ← linkage
  let _ ← word "fn"
  let name ← name
  let (generics, _) ← rec.generics
  return ⟨constness, asyncness, unsafety, convention, name, generics⟩

/-- A signature is its head, its parameters and what stands behind them. -/
theorem signature_eq : rec.signature = (do
    let head ← rec.signatureHead
    let inputs ← within .parenthesis rec.inputs
    let output ← rec.returnType true
    let (clause, _) ← rec.whereClause
    return (head.signature inputs output clause,
      GenericTree.list head.generics ++ clause ++ inputs.flatMap (·.inside) ++ output)) := by
  simp only [signature, signatureHead, bind_assoc, pure_bind]
  rfl

end Recur

theorem isLocal_optionalWord (text : String) : IsLocal (optionalWord text) fun c trees =>
    Keeps c (Tree.leaves (Signature.optionalWord text (!trees.isEmpty))) := by
  refine IsLocal.congr (q := do
    if !atWord text (← remaining) then return [] else anyToken >>= fun head => pure head) ?_ fun r => ?_
  · exact IsLocal.found_word (IsLocal.pure (Keeps.of_eq rfl)) (IsLocal.pure Keeps.nil)
  · rw [optionalWord, run_bind (run_remaining r), run_bind (run_remaining r), bind_pure]
    cases atWord text r.tokens <;> rfl

theorem isLocal_signatureHead {rec : Recur} (hrec : IsLocalRecur rec) :
    IsLocal rec.signatureHead fun c head => c ≠ [] ∧ Keeps c (Tree.leaves head.tokens) := by
  refine (isLocal_optionalWord _).bind fun constness c₁ hconstness =>
    (isLocal_optionalWord _).bind fun asyncness c₂ hasyncness => ?_
  refine (isLocal_optionalWord _).bind fun unsafety c₃ hunsafety =>
    isLocal_linkage.bind fun convention c₄ hconvention => ?_
  refine (IsLocal.word_eq _).bind fun _ c₅ ⟨hfn, _⟩ => IsLocal.name.bind fun name c₆ hname => ?_
  refine hrec.generics.bind fun ⟨generics, _⟩ c₇ hgenerics => IsLocal.pure ⟨by simp [hname.1], ?_⟩
  have hfn : Keeps c₅ [.leaf (.word "fn")] := Keeps.of_eq hfn
  have hall := hconstness.append (hasyncness.append (hunsafety.append (hconvention.append (hfn.append
    (hname.2.append hgenerics)))))
  simp only [List.append_nil]
  refine hall.congr ?_
  simp [SignatureHead.tokens, Tree.tokensOf_append, Tree.tokensOf_leaves, Tree.tokensOf, Tree.word, Tree.tokens,
    GenericTree.tokensOf_list, Function.comp_def]

/-! What stands behind the parameters -/

theorem IsLocalRecur.output {rec : Recur} (hrec : IsLocalRecur rec) : IsLocal (rec.returnType true) fun c trees =>
    Keeps c (Tree.leaves (match trees.getLast?.map Output.ofTree with
      | some output => .mark '-' true :: .mark '>' false :: output.type
      | none => [])) := by
  refine IsLocal.test (fun h => by rw [h.atOperator]) ?_ (IsLocal.pure Keeps.nil)
  refine (IsLocal.operator_eq (by decide)).bind fun arrow c ⟨harrow, hkeeps⟩ => ?_
  refine (hrec.type true).bind fun type c' htype => IsLocal.pure ?_
  subst harrow
  have hall := hkeeps.2.append htype.2
  simp only [List.append_nil]
  refine hall.congr ?_
  rw [List.getLast?_concat]
  simp [Tree.tokensOf_append, Tree.tokensOf_leaves, Tree.tokensOf_singleton, Output.ofTree]
  rfl

/-! Functions -/

namespace Recur

variable (rec : Recur)

def functionHead : Parser (Trees × Trees × SignatureHead) := do
  let attributes ← rec.outerAttributes
  let visible ← visibility
  let head ← rec.signatureHead
  return (attributes, visible, head)

def functionRest (front : Trees × Trees × SignatureHead) (inputs : List ReadInput) : Parser (FunctionItem × Trees) := do
  let (attributes, visible, head) := front
  let output ← rec.returnType true
  let (clause, _) ← rec.whereClause
  rec.restOfFunction attributes visible [] (head.signature inputs output clause)
    (GenericTree.list head.generics ++ clause ++ inputs.flatMap (·.inside) ++ output)

theorem functionItem_eq : rec.functionItem = (do
    let front ← rec.functionHead
    let inputs ← within .parenthesis rec.inputs
    rec.functionRest front inputs) := by
  simp only [functionItem, signature_eq, functionHead, functionRest, bind_assoc, pure_bind]

end Recur

section Functions

variable {rec : Recur} {r s : Reading} {f : FunctionItem} {inside : Trees}

theorem isLocal_functionHead (hrec : IsLocalRecur rec) : IsLocal rec.functionHead fun c front =>
    ∀ attributes : List Attribute, Keeps c (Tree.leaves (attributes.flatMap Attribute.tokens ++
      Tree.tokensOf front.2.1 ++ front.2.2.tokens)) := by
  have hattributes : IsLocal rec.outerAttributes fun c _ => breaks c = 0 := by
    refine ⟨fun hrun => ?_, rec.isLocal_outerAttributes.again⟩
    obtain ⟨c, htokens, hreads, -⟩ := exists_of_outerAttributes hrun
    exact ⟨c, htokens, hreads.breaks_eq⟩
  refine hattributes.bind fun trees c hc => IsLocal.behind_visibility fun visible c' hvisible => ?_
  refine (isLocal_signatureHead hrec).bind fun head c'' ⟨hne, hhead⟩ =>
    IsLocal.pure ⟨by simp [hne], fun attributes => ?_⟩
  have hattributes : Keeps c (Tree.leaves (attributes.flatMap Attribute.tokens)) :=
    Keeps.of_no_breaks hc (by rw [Tree.tokensOf_leaves, (Attribute.breaks_tokens attributes).2])
  have hall := hattributes.append (hvisible.append hhead)
  simp only [List.append_nil]
  refine hall.congr ?_
  simp only [Tree.tokensOf_append, Tree.tokensOf_leaves, List.append_assoc]

/-- What a function is behind its parameters does not depend on them. -/
theorem exists_of_functionRest {front : Trees × Trees × SignatureHead} {inputs : List ReadInput}
    (hrec : IsLocalRecur rec)
    (h : rec.functionRest front inputs r = .ok ((f, inside), s)) : ∃ output clause,
      f.signature = front.2.2.signature inputs output clause ∧ f.visibility = Tree.tokensOf front.2.1 ∧
      f.defaultness = [] ∧
      (∃ c, r.tokens = c ++ s.tokens ∧ ∀ inner, Keeps c (Tree.leaves (f.signature.outputTokens ++ f.signature.bounds ++
        [.group .brace inner]))) ∧
      ∀ inputs', ∃ inside', rec.functionRest front inputs' r =
        .ok (({ f with signature := front.2.2.signature inputs' output clause }, inside'), s) := by
  obtain ⟨attributes, visible, head⟩ := front
  obtain ⟨output, r₁, houtput, h⟩ := run_bind_iff.mp h
  obtain ⟨⟨clause, hasClause⟩, r₂, hclause, h⟩ := run_bind_iff.mp h
  obtain ⟨⟨inside, statements⟩, r₃, hblock, h⟩ := run_bind_iff.mp h
  obtain ⟨heq, rfl⟩ := run_pure_iff.mp h
  obtain ⟨rfl, rfl⟩ := Prod.mk.inj heq
  obtain ⟨c₁, hr₁, houtputs⟩ := hrec.output.reads houtput
  obtain ⟨c₂, hr₂, hclauses⟩ := hrec.whereClause.reads hclause
  obtain ⟨body, s', hbody, -, -⟩ := run_within_iff.mp hblock
  refine ⟨output, clause, rfl, rfl, rfl, ⟨c₁ ++ (c₂ ++ [.group .brace body]), ?_, fun inner => ?_⟩, fun inputs' => ?_⟩
  · rw [hr₁, hr₂, hbody]
    simp
  · have hbraces : Keeps [.group .brace body] (Tree.leaves [.group .brace inner]) :=
      ⟨Nat.le_refl _, fun _ => Nat.le_refl _⟩
    refine (houtputs.append (hclauses.append hbraces)).congr ?_
    rw [Tree.tokensOf_append, Tree.tokensOf_append, Tree.tokensOf_leaves, Tree.tokensOf_leaves, Tree.tokensOf_leaves,
      ← List.append_assoc]
    rfl
  · refine ⟨attributes ++ inside ++ (GenericTree.list head.generics ++ clause ++ inputs'.flatMap (·.inside) ++
      output) ++ [statements], ?_⟩
    rw [Recur.functionRest, run_bind houtput, run_bind hclause]
    exact run_bind hblock

section SignatureOfNames

variable {found found' : List ReadInput} {inputs : List (TypedInput × Bool)} (head : SignatureHead)
    (output clause : Trees)

/-- A signature whose parameters are names. -/
theorem SignatureHead.signature_of_names (h : List.Forall₂ ReadInput.Is found inputs) :
    (head.signature found output clause).inputs = inputs.map (fun x => .typed x.1) ∧
      (head.signature found output clause).endsInComma = inputs.getLast?.any (·.2) ∧
      (head.signature found output clause).variadic = [] := by
  have hcommas : found.map (·.hasComma) = inputs.map (·.2) := by
    rw [← List.forall₂_eq_eq_eq, List.forall₂_map_left_iff, List.forall₂_map_right_iff]
    exact h.imp fun _ _ h => h.2
  have hall : found.filterMap (·.input?) = inputs.map (fun x => .typed x.1) ∧ found.filter (·.input?.isSome) = found ∧
      found.flatMap (·.variadic) = [] := by
    induction h with
    | nil => exact ⟨rfl, rfl, rfl⟩
    | @cons x y found inputs his _ ih =>
      simp only [List.map_cons, List.cons.injEq] at hcommas
      obtain ⟨hinputs, hfilter, hvariadic⟩ := ih hcommas.2
      have hinput : x.input? = some (.typed y.1) := by rw [ReadInput.input?, his.1]
      have hsingle : x.variadic = [] := by rw [ReadInput.variadic, his.1]
      refine ⟨?_, ?_, ?_⟩
      · rw [List.filterMap_cons_some hinput, hinputs, List.map_cons]
      · rw [List.filter_cons_of_pos (by rw [hinput]; rfl), hfilter]
      · rw [List.flatMap_cons, hsingle, hvariadic]
        rfl
  obtain ⟨hinputs, hfilter, hvariadic⟩ := hall
  refine ⟨hinputs, ?_, hvariadic⟩
  have hlast := congrArg (fun commas => commas.getLast?.any id) hcommas
  simpa [signature, hfilter, Option.any_map, Function.comp_def] using hlast

theorem SignatureHead.inputTokens_of_names (h : List.Forall₂ ReadInput.Is found inputs)
    (hchain : inputs.IsChain fun x _ => x.2 = true) :
    (head.signature found output clause).inputTokens = writtenInputs inputs := by
  obtain ⟨hinputs, hcomma, hvariadic⟩ := head.signature_of_names output clause h
  rw [Signature.inputTokens, hinputs, hcomma, hvariadic]
  simpa using list_eq_written hchain

/-- Nothing but its parameters changes where a signature is read without their options. -/
theorem SignatureHead.withoutOptions_of_names (h : List.Forall₂ ReadInput.Is found inputs)
    (h' : List.Forall₂ ReadInput.Is found' (inputs.map fun x => (x.1.withoutOptions, x.2))) :
    (head.signature found output clause).withoutOptions = head.signature found' output clause := by
  obtain ⟨hinputs, hcomma, hvariadic⟩ := head.signature_of_names output clause h
  obtain ⟨hinputs', hcomma', hvariadic'⟩ := head.signature_of_names output clause h'
  have hlast : (inputs.map fun x => (x.1.withoutOptions, x.2)).getLast?.any (·.2) = inputs.getLast?.any (·.2) := by
    simp [List.getLast?_map, Option.any_map]
  have hsame : head.signature found' output clause = { head.signature found output clause with
      inputs := (head.signature found' output clause).inputs
      endsInComma := (head.signature found' output clause).endsInComma
      variadic := (head.signature found' output clause).variadic } := rfl
  rw [hsame, hinputs', hcomma', hvariadic', hlast, ← hcomma, ← hvariadic, Signature.withoutOptions, hinputs,
    List.map_map, List.map_map]
  rfl

end SignatureOfNames

/-- Parameters that are read from what is written of them are read from what is written of them without options. -/
theorem run_inputs_withoutOptions {o o' : Option Delimiter} {inputs : List (TypedInput × Bool)}
    (hrec : IsLocalRecur rec)
    (hpatterns : HasPatterns rec) (h : ReadsInputs rec ⟨writtenInputs inputs, o⟩ inputs o')
    (hdeclared : ∀ x ∈ inputs, ∃ p, (Input.typed x.1).declare = .ok p) :
    ∃ found, rec.inputs ⟨writtenInputs (inputs.map fun x => (x.1.withoutOptions, x.2)), o⟩ = .ok (found, ⟨[], o'⟩) ∧
      List.Forall₂ ReadInput.Is found (inputs.map fun x => (x.1.withoutOptions, x.2)) := by
  have hdeclared : ∀ x ∈ inputs, x.1.name?.isSome = true ∧
      ∃ options, ParameterOptions.ofAttributes x.1.attributes = .ok options := by
    intro x hx
    obtain ⟨p, hp⟩ := hdeclared x hx
    obtain ⟨typed, name, options, heq, hname, hoptions, -⟩ := Input.declare_eq_ok_iff.mp hp
    obtain rfl := Input.typed.inj heq
    exact ⟨Option.isSome_iff_exists.mpr ⟨name, hname⟩, options, hoptions⟩
  have hnames := h.names hrec hpatterns (fun x hx => (hdeclared x hx).1) rfl
  exact (hnames.withoutOptions hrec fun x hx => (hdeclared x hx).2).run hpatterns

/-- What is written in front of the parameters of a function, and behind them. -/
theorem FunctionItem.tokens_of_signature {head : SignatureHead} {visible output clause : Trees} {found : List ReadInput}
    (hvisibility : f.visibility = Tree.tokensOf visible) (hdefaultness : f.defaultness = [])
    (hsignature : f.signature = head.signature found output clause) :
    f.tokens = ((f.attributes.filter (!·.isInner)).flatMap Attribute.tokens ++ Tree.tokensOf visible ++ head.tokens) ++
      .group .parenthesis f.signature.inputTokens :: (f.signature.outputTokens ++ f.signature.bounds ++
        [.group .brace ((f.attributes.filter (·.isInner)).flatMap Attribute.tokens ++ f.body)]) := by
  simp only [tokens, hvisibility, hdefaultness, hsignature, Signature.tokens, SignatureHead.tokens, List.append_assoc,
    List.nil_append, List.cons_append]
  rfl

/-- A declared function has nothing but names for parameters. -/
theorem isNamed_of_declare {head : SignatureHead} {output clause : Trees} {found : List ReadInput}
    (hsignature : f.signature = head.signature found output clause) (hdeclare : f.declare.2 = [])
    (hvariadic : f.signature.variadic = []) : ∀ x ∈ found, x.IsNamed := by
  intro x hx
  have hinputs : f.signature.inputs = found.filterMap (·.input?) := by rw [hsignature]; rfl
  have hvariadics : found.flatMap (·.variadic) = [] := by rw [← hvariadic, hsignature]; rfl
  refine ⟨List.flatMap_eq_nil_iff.mp hvariadics x hx, fun input hinput => ?_⟩
  have hmem : input ∈ f.signature.inputs := hinputs ▸ List.mem_filterMap.mpr ⟨x, hx, hinput⟩
  obtain ⟨p, hp⟩ := Input.exists_declare_of_mem (FunctionItem.inputs_declare hdeclare) input hmem
  obtain ⟨name, hname, -⟩ := Input.name?_of_declare hp
  rw [hname]
  rfl

/-- A function that is read from its own tokens is read from what is written of it without options. -/
theorem run_functionItem_withoutOptions {o : Option Delimiter} (hrec : IsLocalRecur rec) (hpatterns : HasPatterns rec)
    (h : rec.functionItem ⟨f.tokens, o⟩ = .ok ((f, inside), s)) (hend : s.tokens = []) (hdeclare : f.declare.2 = [])
    (hvariadic : f.signature.variadic = []) :
    ∃ inside', rec.functionItem ⟨f.withoutOptions.tokens, o⟩ = .ok ((f.withoutOptions, inside'), s) := by
  rw [Recur.functionItem_eq] at h ⊢
  obtain ⟨⟨attributes, visible, head⟩, ⟨tokens, o₁⟩, hfront, h⟩ := run_bind_iff.mp h
  obtain ⟨found, r₂, hwithin, hbehind⟩ := run_bind_iff.mp h
  obtain ⟨output, clause, hsignature, hvisibility, hdefaultness, ⟨c', hr₂, hkeeps'⟩, hrest⟩ :=
    exists_of_functionRest hrec hbehind
  obtain ⟨c, htokens, hkeeps⟩ := (isLocal_functionHead hrec).reads hfront
  obtain ⟨inner, r₃, rfl, hinputs, hleftover⟩ := run_within_iff.mp hwithin
  dsimp only at hsignature hvisibility htokens hkeeps
  have hnames := isNamed_of_declare hsignature hdeclare hvariadic
  obtain ⟨inputs, hreads, hempty, his⟩ := exists_readsInputs_of_run hrec hinputs hnames
  have hlist := head.inputTokens_of_names output clause his (hreads.isChain hrec)
  rw [← hsignature] at hlist
  -- What is read in front of the parameters and what is written part where they stand.
  have hown := FunctionItem.tokens_of_signature hvisibility hdefaultness hsignature
  have hparts := (hkeeps (f.attributes.filter (!·.isInner))).split
    (hkeeps' ((f.attributes.filter (·.isInner)).flatMap Attribute.tokens ++ f.body)) rfl rfl
    (by rw [Tree.tokensOf_leaves, Tree.tokensOf_leaves, ← hown, htokens, hr₂, hend, List.append_nil])
  obtain ⟨hc, hgroup, hc'⟩ := hparts
  rw [Tree.tokensOf_leaves] at hc hc'
  obtain rfl : inner = writtenInputs inputs := (Token.group.inj hgroup).2.trans hlist
  have hdeclared : ∀ x ∈ inputs, ∃ p, (Input.typed x.1).declare = .ok p := fun x hx => by
    refine Input.exists_declare_of_mem (FunctionItem.inputs_declare hdeclare) _ ?_
    rw [hsignature, (head.signature_of_names output clause his).1]
    exact List.mem_map.mpr ⟨x, hx, rfl⟩
  obtain ⟨found', hrun, his'⟩ := run_inputs_withoutOptions hrec hpatterns hreads hdeclared
  have hsignature' : f.withoutOptions.signature = head.signature found' output clause := by
    rw [← head.withoutOptions_of_names output clause his his', ← hsignature]
    rfl
  have hchain' : (inputs.map fun x => (x.1.withoutOptions, x.2)).IsChain fun x _ => x.2 = true :=
    (List.isChain_map _).mpr (hreads.isChain hrec)
  have hlist' := head.inputTokens_of_names output clause his' hchain'
  rw [← hsignature'] at hlist'
  have hown' : f.withoutOptions.tokens = c ++ .group .parenthesis (writtenInputs (inputs.map fun x =>
      (x.1.withoutOptions, x.2))) :: r₂.tokens := by
    rw [hr₂, hend, List.append_nil, hc, hc', ← hlist']
    exact FunctionItem.tokens_of_signature hvisibility hdefaultness hsignature'
  -- Only the group changes, and nothing in front of it is read with a view to what it holds.
  rw [htokens] at hfront
  have halike : Alike (.group .parenthesis (writtenInputs inputs) :: r₂.tokens) (.group .parenthesis (writtenInputs
      (inputs.map fun x => (x.1.withoutOptions, x.2))) :: r₂.tokens) := .parentheses _ _ _ _
  have hwithin' : within .parenthesis rec.inputs ⟨.group .parenthesis (writtenInputs (inputs.map fun x =>
      (x.1.withoutOptions, x.2))) :: r₂.tokens, o₁⟩ = .ok (found', r₂) :=
    run_within_iff.mpr ⟨_, _, rfl, hrun, by rw [hleftover, hempty]⟩
  obtain ⟨inside', hrest'⟩ := hrest found'
  refine ⟨inside', ?_⟩
  rw [hown']
  refine run_bind_iff.mpr ⟨_, _, (isLocal_functionHead hrec).swap halike hfront, run_bind_iff.mpr ⟨_, _, hwithin', ?_⟩⟩
  rw [hrest', ← hsignature']
  rfl

end Functions

theorem parseFunction_eq_ok_iff {tokens : List Token} {f : FunctionItem} : parseFunction tokens = .ok f ↔
    ∃ inside, sourceGrammar.functionItem ⟨tokens, none⟩ = .ok ((f, inside), ⟨[], none⟩) := by
  have hall : ∀ {x : FunctionItem × Trees}, parse (·.functionItem) tokens = .ok x ↔
      sourceGrammar.functionItem ⟨tokens, none⟩ = .ok (x, ⟨[], none⟩) := by
    intro x
    rw [parse, parseAll, bind_eq_ok_iff]
    constructor
    · rintro ⟨⟨value, rest, leftover?⟩, hrun, h⟩
      dsimp only at h
      cases leftover? with
      | some delimiter => cases h
      | none =>
        cases rest with
        | cons => cases h
        | nil =>
          obtain rfl : value = x := Except.ok.inj h
          exact hrun
    · exact fun hrun => ⟨_, hrun, rfl⟩
  rw [parseFunction, bind_eq_ok_iff]
  constructor
  · rintro ⟨⟨f', inside⟩, hparse, h⟩
    obtain rfl : f' = f := Except.ok.inj h
    exact ⟨inside, hall.mp hparse⟩
  · rintro ⟨inside, hrun⟩
    exact ⟨_, hall.mpr hrun, rfl⟩

/-- Where a function is read from its own tokens, what is written of it without the options of its parameters is read
as the function without them. -/
theorem parseFunction_withoutOptions {f : FunctionItem} (h : parseFunction f.tokens = .ok f)
    (hdeclare : f.declare.2 = [])
    (hvariadic : f.signature.variadic = []) : parseFunction f.withoutOptions.tokens = .ok f.withoutOptions := by
  obtain ⟨inside, hrun⟩ := parseFunction_eq_ok_iff.mp h
  obtain ⟨depth, hdepth⟩ : ∃ depth, maxDepth = depth + 1 := Nat.exists_eq_succ_of_ne_zero (by decide)
  have hpatterns : HasPatterns sourceGrammar := ⟨grammar depth, by rw [sourceGrammar, hdepth]; rfl⟩
  obtain ⟨inside', hrun'⟩ :=
    run_functionItem_withoutOptions (isLocalRecur_grammar maxDepth) hpatterns hrun rfl hdeclare hvariadic
  exact parseFunction_eq_ok_iff.mpr ⟨inside', hrun'⟩

end CommandBinding.Source
