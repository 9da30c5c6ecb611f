import CommandBinding.Proofs.LocalReading
import CommandBinding.Source.Grammar.Generics

/-!
Types, paths and generic parameters do not look beyond a comma or a group in parentheses. Each rule of the grammar is
taken on the assumption that the parts it contains are read so, and a bound on the depth of a parse carries it to all of
them.
-/
namespace CommandBinding.Source

open CommandBinding.Source.Parser

def Tree.isWord : Tree → Bool
  | leaf (.mark _ _) => false
  | _ => true

/-- The parts of types and patterns that contain each other are read so. -/
structure IsLocalRecur (rec : Recur) : Prop where
  type : ∀ allowsPlus, IsLocal (rec (.type allowsPlus)) fun c tree => Takes c [tree]
  genericArgument : IsLocal (rec .genericArgument) fun c tree => Takes c [tree] ∧ tree.isWord
  binder : IsLocal (rec .binder) fun c tree => Takes c [tree] ∧ 0 < binders c
  pattern : IsLocal (rec .pattern) fun c tree => Takes c [tree]

/-! Lists in angle brackets -/

section Lifetimes

variable {α : Type} {items : List (ListItem α)}

/-- Putting lifetimes first moves members, and may add a comma. -/
theorem ListItem.measure_lifetimesFirst (measure : List α → Nat) (h : ∀ a b, measure (a ++ b) = measure a + measure b)
    (comma : List α) (items : List (ListItem α)) :
    measure (written items) ≤ measure (lifetimesFirst comma items) ∧
      measure (lifetimesFirst comma items) ≤ measure (written items) + measure comma := by
  have hnil : measure [] = 0 := by
    have hdouble := h [] []
    rw [List.append_nil] at hdouble
    omega
  have hparts : measure (written items) =
      measure (written (items.filter (·.isLifetime))) + measure (written (items.filter (!·.isLifetime))) := by
    induction items with
    | nil => simp [written, hnil]
    | cons item items ih => cases hitem : item.isLifetime <;> simp [written, hitem, h] at ih ⊢ <;> omega
  rw [lifetimesFirst, h, h, hparts]
  split <;> omega

theorem Keeps.lifetimesFirst {c : List Token} {items : List (ListItem Tree)} (h : Keeps c (ListItem.written items)) :
    Keeps c (ListItem.lifetimesFirst (Tree.operator ",") items) := by
  have hbinders := ListItem.measure_lifetimesFirst (fun trees => binders (Tree.tokensOf trees))
    (fun a b => by rw [Tree.tokensOf_append, binders_append]) (Tree.operator ",") items
  have hbreaks := ListItem.measure_lifetimesFirst (fun trees => breaks (Tree.tokensOf trees))
    (fun a b => by rw [Tree.tokensOf_append, breaks_append]) (Tree.operator ",") items
  have hcomma : binders (Tree.tokensOf (Tree.operator ",")) = 0 := by decide
  simp only [Keeps] at h ⊢
  omega

namespace GenericTree

/-- What is read of parameters, in the order they are read. -/
def inOrder (items : List GenericTree) : Trees :=
  items.flatMap fun g => g.head ++ g.default ++ g.comma

theorem inOrder_append (items items' : List GenericTree) :
    inOrder (items ++ items') = inOrder items ++ inOrder items' :=
  List.flatMap_append

@[simp] theorem inOrder_singleton (g : GenericTree) : inOrder [g] = g.head ++ (g.default ++ g.comma) := by
  simp [inOrder]

theorem written_parameters (items : List GenericTree) :
    ListItem.written (items.map (·.parameter.withDefault)) = Tree.tokensOf (inOrder items) := by
  induction items with
  | nil => rfl
  | cons g items ih =>
    have hfirst : g.parameter.withDefault.item ++ g.parameter.withDefault.comma =
        Tree.tokensOf (g.head ++ g.default ++ g.comma) := by
      rw [Tree.tokensOf_append, Tree.tokensOf_append]
      rfl
    rw [inOrder, List.flatMap_cons, Tree.tokensOf_append, ← inOrder, ← ih, ← hfirst]
    rfl

theorem tokensOf_list (items : List GenericTree) :
    Tree.tokensOf (list items) = GenericParameter.list (items.map (·.parameter.withDefault)) := by
  cases items with
  | nil => rfl
  | cons => exact Tree.tokensOf_singleton

end GenericTree

theorem Keeps.genericList {c : List Token} {items : List GenericTree} (h : Keeps c (GenericTree.inOrder items)) :
    Keeps c (GenericTree.list items) := by
  cases items with
  | nil => exact h
  | cons g items =>
    have hbinders := ListItem.measure_lifetimesFirst binders (fun a b => binders_append) [.mark ',' false]
      ((g :: items).map (·.parameter.withDefault))
    have hbreaks := ListItem.measure_lifetimesFirst breaks (fun a b => breaks_append) [.mark ',' false]
      ((g :: items).map (·.parameter.withDefault))
    have hcomma : binders [.mark ',' false] = 0 := by decide
    have hless : binders [.mark '<' false] = 0 ∧ binders [.mark '>' false] = 0 := by decide
    have htokens : Tree.tokensOf (GenericTree.list (g :: items)) = [.mark '<' false] ++
        ListItem.lifetimesFirst [.mark ',' false] ((g :: items).map (·.parameter.withDefault)) ++ [.mark '>' false] :=
      GenericTree.tokensOf_list _
    simp only [Keeps, htokens, breaks_append, binders_append, GenericTree.written_parameters] at h hbinders hbreaks ⊢
    omega

theorem mem_lifetimesFirst (comma : List α) {i : ListItem α} {x : α} (hi : i ∈ items)
    (hx : x ∈ i.item) : x ∈ ListItem.lifetimesFirst comma items := by
  simp only [ListItem.lifetimesFirst, ListItem.written, List.mem_append, List.mem_flatMap, List.mem_filter]
  cases hlifetime : i.isLifetime with
  | true => exact Or.inl (Or.inl ⟨i, ⟨hi, hlifetime⟩, Or.inl hx⟩)
  | false => exact Or.inr ⟨i, ⟨hi, by simp [hlifetime]⟩, Or.inl hx⟩

end Lifetimes

section Angles

variable {item : Parser (Bool × Trees)} {I : Trees → Prop}

theorem isLocal_angleList (hitem : IsLocal item fun c x => Takes c x.2 ∧ I x.2) :
    IsLocal (angleList item) fun c items => Keeps c (ListItem.written items) ∧ ∀ i ∈ items, I i.item := by
  refine @IsLocal.collect _ _ (fun c x =>
      (Keeps c (ListItem.written x.1) ∧ ∀ i ∈ x.1, I i.item) ∧ (x.2 = true → c ≠ []))
    _ ?_ (fun h => h.2 rfl) (fun h => h.1) fun h h' => ⟨?_, List.forall_mem_append.mpr ⟨h.1.2, h'.2⟩⟩
  · refine IsLocal.test (fun h => by rw [h.atOperator]) (IsLocal.pure ⟨⟨Keeps.nil, by simp⟩, nofun⟩) ?_
    refine hitem.bind fun ⟨isLifetime, trees⟩ c ⟨htrees, hI⟩ => ?_
    refine IsLocal.test (fun h => by rw [h.atOperator]) (IsLocal.pure ⟨⟨?_, by simpa using hI⟩, nofun⟩) ?_
    · simpa [ListItem.written] using htrees.2
    · refine (IsLocal.operator (by decide)).bind fun comma c' hcomma => IsLocal.pure ⟨⟨?_, by simpa using hI⟩, ?_⟩
      · simpa [ListItem.written] using htrees.2.append hcomma.2
      · simp [htrees.1]
  · simpa [ListItem.written] using h.1.1.append h'.1

/-- Brackets that hold nothing but marks hold nothing, if a member is more than marks. -/
theorem isLocal_inAngles (hitem : IsLocal item fun c x => Takes c x.2 ∧ I x.2) : IsLocal (inAngles item) fun c trees =>
    Takes c trees ∧ ((∀ trees', I trees' → ∃ tree ∈ trees', tree.isWord = true) →
      (∀ tree ∈ trees, tree.isWord = false) → Keeps c []) := by
  refine (IsLocal.operator_eq (by decide)).bind fun opening c ⟨hless, hopening⟩ => ?_
  refine (isLocal_angleList hitem).bind fun items c' ⟨hitems, hall⟩ => ?_
  refine (IsLocal.operator_eq (by decide)).bind fun closing c'' ⟨hgreater, hclosing⟩ =>
    IsLocal.pure ⟨?_, fun hI hmarks => ?_⟩
  · simpa using hopening.append (hitems.lifetimesFirst.append hclosing.2)
  · cases items with
    | nil =>
      subst hless hgreater
      have hbrackets : Keeps (c ++ (c' ++ c'')) (Tree.operator "<" ++ ([] ++ Tree.operator ">")) :=
        hopening.2.append (hitems.append hclosing.2)
      simpa using hbrackets.nil_of_breaks (by decide)
    | cons i items =>
      obtain ⟨tree, htree, hword⟩ := hI _ (hall i (by simp))
      have hmem := mem_lifetimesFirst (Tree.operator ",") (List.mem_cons_self : i ∈ i :: items) htree
      simp [hmarks tree (by simp [hmem])] at hword

end Angles

theorem isLocal_boundsUntil {ends : List Token → Bool} {bound : Parser Trees}
    (hends : ∀ {T T' l}, Alike T T' → ends (l ++ T) = ends (l ++ T')) (hbound : IsLocal bound Takes) :
    IsLocal (boundsUntil ends bound) Keeps := by
  refine IsLocal.collected_trees ?_
  refine IsLocal.test (fun h => by rw [hends h]) (IsLocal.pure ⟨Keeps.nil, nofun⟩) ?_
  refine hbound.bind fun first c hfirst => ?_
  refine IsLocal.test (fun h => by rw [h.atOperator]) ?_ (IsLocal.pure ⟨by simpa using hfirst.2, nofun⟩)
  refine (IsLocal.operator (by decide)).bind fun plus c' hplus => IsLocal.pure ⟨?_, ?_⟩
  · simpa using hfirst.2.append hplus.2
  · simp [hfirst.1]

theorem isLocal_builtin : IsLocal builtin fun c _ => c ≠ [] := by
  refine (IsLocal.word _).bind fun head c hhead => (IsLocal.operator (by decide)).bind fun sign c' hsign => ?_
  refine IsLocal.name.bind fun name d hname => (IsLocal.group _ _).bind fun arguments d' harguments => IsLocal.pure ?_
  simp [hhead.1]

theorem isLocal_capture : IsLocal capture Takes := by
  refine (IsLocal.word _).bind fun head c hhead => ?_
  refine (isLocal_inAngles (I := fun _ => True) ?_).bind fun names c' ⟨hnames, _⟩ =>
    IsLocal.pure (by simpa using hhead.append hnames.2)
  refine IsLocal.test (fun h => by rw [h.atLifetime]) ?_ (IsLocal.test (fun h => by rw [h.atWord]) ?_ ?_)
  · exact IsLocal.lifetime.bind fun name c hname => IsLocal.pure (by simpa using hname)
  · exact IsLocal.anyToken.bind fun self c hself => IsLocal.pure (by simpa using hself.1)
  · exact IsLocal.nameLeaf.bind fun name c hname => IsLocal.pure (by simpa using hname.1)

theorem isLocal_constantMark : IsLocal constantMark Keeps :=
  IsLocal.test (fun h => by rw [h.atGroup]) ((IsLocal.group _ _).mono fun _ _ h => h.2) (IsLocal.optionalWord _)

theorem isLocal_linkage : IsLocal Recur.linkage Keeps := by
  refine IsLocal.test (fun h => by rw [h.atWord]) ?_ (IsLocal.pure Keeps.nil)
  refine IsLocal.anyToken.bind fun head c ⟨hhead, _⟩ => IsLocal.test (fun h => by rw [h.atString]) ?_ ?_
  · exact IsLocal.anyToken.bind fun name c' ⟨hname, _⟩ => IsLocal.pure (by simpa using hhead.2.append hname.2)
  · exact IsLocal.pure (by simpa using hhead.2)

/-! Tests behind the first tokens -/

namespace Alike

variable {T T' l : List Token}

/-- What stands behind a word is tested only if the word stands in front. -/
theorem behind_head (h : Alike T T') (test other : List Token → Bool) (hhead : ∀ {T T'}, Alike T T' → test T = false)
    (htest : ∀ {T T' l}, Alike T T' → test (l ++ T) = test (l ++ T'))
    (hother : ∀ {T T' l}, Alike T T' → other (l ++ T) = other (l ++ T')) :
    (test (l ++ T) && other ((l ++ T).drop 1)) = (test (l ++ T') && other ((l ++ T').drop 1)) := by
  cases l with
  | nil =>
    rw [List.nil_append, List.nil_append, hhead h, hhead h.symm]
    rfl
  | cons token l =>
    rw [htest h]
    simp only [List.cons_append, List.drop_one, List.tail_cons, hother h]

/-- What stands behind two colons is tested only if they stand in front. -/
theorem behind_colons (h : Alike T T') (other : List Token → Bool)
    (hother : ∀ {T T' l}, Alike T T' → other (l ++ T) = other (l ++ T')) :
    (Source.atOperator "::" (l ++ T) && other ((l ++ T).drop 2)) =
      (Source.atOperator "::" (l ++ T') && other ((l ++ T').drop 2)) := by
  rw [h.atOperator]
  cases hcolons : Source.atOperator "::" (l ++ T') with
  | false => rfl
  | true =>
    match l with
    | [] => cases h <;> cases hcolons
    | [token] => cases h <;> cases token <;> simp [Source.atOperator, behindOperator?] at hcolons
    | _ :: _ :: l => simp only [List.cons_append, List.drop_succ_cons, List.drop_zero, hother h]

theorem isBoundStart {allowsConstant : Bool} (h : Alike T T') :
    isBoundStart allowsConstant (l ++ T) = Source.isBoundStart allowsConstant (l ++ T') := by
  simp only [Source.isBoundStart, h.atAnyWord, h.atOperator, h.atLifetime, h.atGroup]

/-- Whether what stands behind `<` and a name tells that the name is a generic parameter. -/
def endsName (tokens : List Token) : Bool :=
  Source.atOperator ">" tokens || Source.atOperator "," tokens ||
    (Source.atOperator ":" tokens && !Source.atOperator "::" tokens) || Source.atOperator "=" tokens

/-- Whether what stands behind `<` tells that generic parameters begin. -/
def beginsParameters (tokens : List Token) : Bool :=
  Source.atOperator ">" tokens || Source.atOperator "#" tokens || Source.atWord "const" tokens ||
    ((Source.atLifetime tokens || Source.atName tokens) && endsName (tokens.drop 1))

theorem beginsParameters_append (h : Alike T T') : beginsParameters (l ++ T) = beginsParameters (l ++ T') := by
  rw [beginsParameters, beginsParameters, h.atOperator, h.atOperator, h.atWord,
    h.behind_head (fun tokens => Source.atLifetime tokens || Source.atName tokens) endsName
      (fun h => by cases h <;> rfl) (fun h => by rw [h.atLifetime, h.atName])
      fun h => by simp only [endsName, h.atOperator]]

theorem atGenericParameters (h : Alike T T') :
    atGenericParameters (l ++ T) = Source.atGenericParameters (l ++ T') := by
  have hsplit : ∀ tokens, Source.atGenericParameters tokens =
      (Source.atOperator "<" tokens && beginsParameters (tokens.drop 1)) := fun tokens => by
    simp only [Source.atGenericParameters, beginsParameters, endsName, List.drop_drop]
  rw [hsplit, hsplit]
  exact h.behind_head _ _ (fun h => by cases h <;> rfl) (fun h => h.atOperator) fun h => h.beginsParameters_append

end Alike

def lifetimeLeaf : Parser Tree := do
  match ← remaining with
  | .lifetime name :: rest =>
    advance rest
    return .leaf (.lifetime name)
  | _ => misplaced "expected lifetime"

theorem isLocal_lifetimeLeaf : IsLocal lifetimeLeaf fun c tree => Takes c [tree] ∧ tree.isWord :=
  IsLocal.of_exact fun {r r' tree} hrun => by
    obtain ⟨tokens, o⟩ := r
    cases tokens with
    | nil => cases hrun
    | cons token rest =>
      cases token with
      | lifetime name =>
        obtain ⟨rfl, rfl⟩ : Tree.leaf (.lifetime name) = tree ∧ (⟨rest, o⟩ : Reading) = r' :=
          Prod.mk.inj (Except.ok.inj hrun)
        exact ⟨[.lifetime name], rfl, ⟨⟨by simp, Keeps.of_eq rfl⟩, rfl⟩, fun _ => rfl⟩
      | _ => cases hrun

namespace Recur

variable (rec : Recur)

theorem isLocal_outerAttributes : IsLocal rec.outerAttributes Keeps := by
  refine IsLocal.collectWhile (fun h => h.atOperator) ?_
  refine (IsLocal.operator (by decide)).bind fun sign c hsign => ?_
  exact (IsLocal.group _ _).bind fun inside c' hinside => IsLocal.pure (by simpa using hsign.append hinside.2)

theorem isLocal_blockBehind : IsLocal (rec.blockBehind []) Takes := by
  refine (IsLocal.within _ _).bind fun ⟨attributes, statements⟩ c hc => IsLocal.pure ?_
  obtain ⟨inner, rfl⟩ := hc
  exact ⟨by simp, Nat.le_refl _, fun _ => Nat.le_refl _⟩

theorem isLocal_constantArgument : IsLocal rec.constantArgument Takes := by
  refine IsLocal.look_ite (fun h => by rw [h.atLiteral]) (IsLocal.look_const ?_) ?_
  · exact IsLocal.literal.bind fun number c hnumber => IsLocal.pure (by simpa using hnumber)
  refine IsLocal.look_ite (fun h => by rw [h.atName]) (IsLocal.look_const ?_) ?_
  · exact IsLocal.nameLeaf.bind fun name c hname => IsLocal.pure (by simpa using hname.1)
  refine IsLocal.test (fun h => by rw [h.atGroup]) ?_ (IsLocal.misplaced _)
  exact rec.isLocal_blockBehind.bind fun block c hblock => IsLocal.pure (by simpa using hblock)

theorem isLocal_arrayType : IsLocal rec.arrayType fun c tree => Takes c [tree] :=
  (IsLocal.group _ _).bind fun inside c hinside => IsLocal.pure (by simpa using hinside)

end Recur

namespace IsLocalRecur

variable {rec : Recur} (hrec : IsLocalRecur rec)
include hrec

theorem anyType : IsLocal rec.anyType fun c tree => Takes c [tree] :=
  hrec.type true

theorem optionalBinder : IsLocal rec.optionalBinder fun c trees => Keeps c trees ∧ (trees ≠ [] → 0 < binders c) := by
  refine IsLocal.test (fun h => by rw [h.atWord]) ?_ (IsLocal.pure ⟨Keeps.nil, nofun⟩)
  exact hrec.binder.bind fun binder c ⟨hbinder, hpos⟩ =>
    IsLocal.pure ⟨by simpa using hbinder.2, fun _ => by simpa using hpos⟩

theorem returnType (allowsPlus : Bool) : IsLocal (rec.returnType allowsPlus) Keeps := by
  refine IsLocal.test (fun h => by rw [h.atOperator]) ?_ (IsLocal.pure Keeps.nil)
  refine (IsLocal.operator (by decide)).bind fun arrow c harrow => ?_
  exact (hrec.type allowsPlus).bind fun type c' htype => IsLocal.pure (by simpa using harrow.2.append htype.2)

theorem functionArguments : IsLocal rec.functionArguments Takes :=
  (IsLocal.group _ _).bind fun arguments c harguments => (hrec.returnType false).bind fun output c' houtput =>
    IsLocal.pure (by simpa using harguments.append houtput)

theorem argument : IsLocal rec.argument fun c x => Takes c x.2 ∧ ∃ tree ∈ x.2, tree.isWord = true := by
  refine hrec.genericArgument.bind fun tree c htree => ?_
  cases tree with
  | leaf token => exact IsLocal.pure (by simpa using htree)
  | _ => exact IsLocal.pure (by simpa using htree)

/-- A segment of a path. Empty brackets behind it may be left out. -/
theorem segment (isExpression : Bool) : IsLocal (rec.segment isExpression) fun c tree =>
    Takes c [tree] ∧ ∀ bare, bareSegment? tree = some bare → Keeps c [bare] := by
  have hplain : ∀ {c : List Token} {head : Trees}, Takes c head ∧ (∃ token, head = [.leaf token]) →
      Takes c [.node .segment head] ∧ ∀ bare, bareSegment? (.node .segment head) = some bare → Keeps c [bare] := by
    rintro c head ⟨hhead, token, rfl⟩
    refine ⟨takes_node.mpr hhead, fun bare hbare => ?_⟩
    obtain rfl : Tree.node .segment [.leaf token] = bare := Option.some.inj hbare
    exact keeps_node.mpr hhead.2
  refine IsLocal.look_ite (fun h => by rw [h.atOneOf]) (IsLocal.look_const ?_) ?_
  · exact IsLocal.anyToken.bind fun word c hword => IsLocal.pure (by simpa using hplain hword)
  refine IsLocal.look (fun h => by simp only [h.atWord]) fun tokens => ?_
  extract_lets -underBinder behindHead
  have hhead : ∀ head c, Takes c head ∧ (∃ token, head = [.leaf token]) → IsLocal (behindHead head) fun c' tree =>
      Takes (c ++ c') [tree] ∧ ∀ bare, bareSegment? tree = some bare → Keeps (c ++ c') [bare] := by
    intro head c hhead
    refine IsLocal.look_ite (fun h => ?_) (IsLocal.look_const ?_)
      (IsLocal.look_const (IsLocal.pure (by simpa using hplain hhead)))
    · rw [h.behind_colons (atOperator "<") fun h => h.atOperator]
      simp only [h.atOperator]
    refine (IsLocal.optionalOperator (by decide)).bind fun colons c' ⟨hkeeps, hcolons⟩ => ?_
    refine (isLocal_inAngles (I := fun trees => ∃ tree ∈ trees, tree.isWord = true) hrec.argument).bind
      fun arguments c'' ⟨htakes, hempty⟩ => IsLocal.pure ⟨?_, fun bare hbare => ?_⟩
    · have harguments : Keeps (c' ++ c'') [.node .arguments (colons ++ arguments)] := by
        simpa using hkeeps.append htakes.2
      simpa using hhead.1.append harguments
    obtain ⟨token, rfl⟩ := hhead.2
    simp only [bareSegment?, List.cons_append, List.nil_append, Option.ite_none_right_eq_some,
      Option.some.injEq] at hbare
    obtain ⟨hmarks, rfl⟩ := hbare
    have hnone : Keeps c'' [] := hempty (fun _ h => h) fun tree htree => by
      have hmark := List.all_eq_true.mp hmarks tree (List.mem_append_right _ htree)
      cases tree with
      | leaf token => cases token <;> simp_all [Tree.isWord]
      | _ => simp at hmark
    have hcolons : Keeps c' [] := hkeeps.nil_of_breaks (by obtain rfl | rfl := hcolons <;> decide)
    simpa using hhead.1.2.append (hcolons.append hnone)
  refine IsLocal.ite ?_ ?_
  · exact IsLocal.anyToken.bind fun self c hself => hhead self c hself
  · exact IsLocal.nameLeaf.bind fun name c hname => hhead name c hname

/-- A path. Empty brackets behind its last segment may be left out. -/
theorem path (isExpression : Bool) : IsLocal (rec.path isExpression) fun c path => Takes c path ∧
    ∀ bare, path.getLast?.bind bareSegment? = some bare → Keeps c (path.dropLast ++ [bare]) := by
  refine (IsLocal.optionalOperator (by decide)).bind fun root c ⟨hroot, _⟩ => ?_
  refine @IsLocal.bind _ _ _ (fun c segments => Takes c segments ∧ ∃ front last, segments = front ++ [last] ∧
    ∀ bare, bareSegment? last = some bare → Keeps c (front ++ [bare])) _ _ ?_ ?_
  · refine @IsLocal.collect _ _ (fun c x => Takes c x.1 ∧ (x.2 = false → ∃ front last, x.1 = front ++ [last] ∧
      ∀ bare, bareSegment? last = some bare → Keeps c (front ++ [bare]))) _ ?_ ?_ ?_ ?_
    · refine (hrec.segment isExpression).bind fun segment c' ⟨hsegment, hbare⟩ => IsLocal.test (fun h => ?_) ?_ ?_
      · rw [h.behind_colons (fun tokens => !atGroup .parenthesis tokens) fun h => by simp only [h.atGroup]]
      · refine (IsLocal.operator (by decide)).bind fun colons c'' hcolons => IsLocal.pure ⟨?_, nofun⟩
        simpa using hsegment.append hcolons.2
      · exact IsLocal.pure ⟨by simpa using hsegment, fun _ => ⟨[], segment, rfl, by simpa using hbare⟩⟩
    · exact fun h => h.1.1
    · exact fun h => ⟨h.1, h.2 rfl⟩
    · rintro c found c' rest ⟨hfound, -⟩ ⟨hrest, front, last, rfl, hbare⟩
      refine ⟨hfound.append hrest.2, found ++ front, last, by simp, fun bare h => ?_⟩
      simpa using hfound.2.append (hbare bare h)
  · rintro segments c' ⟨hsegments, front, last, rfl, hbare⟩
    refine IsLocal.pure ⟨by simpa using Takes.behind hroot hsegments, fun bare h => ?_⟩
    rw [← List.append_assoc, List.getLast?_concat] at h
    rw [← List.append_assoc root, List.dropLast_concat]
    simpa using hroot.append (hbare bare h)

theorem traitBound (allowsConstant : Bool) : IsLocal (rec.traitBound allowsConstant) fun c x => Takes c x.1 := by
  refine hrec.optionalBinder.bind fun before c ⟨hbefore, _⟩ => isLocal_constantMark.bind fun mark c' hmark => ?_
  extract_lets -underBinder behindMark
  have hbehind : ∀ u, IsLocal (behindMark u) fun c'' x => Takes (c ++ (c' ++ c'')) x.1 := by
    intro u
    refine (IsLocal.optionalOperator (by decide)).bind fun modifier d ⟨hmodifier, _⟩ => ?_
    extract_lets -underBinder behindModifier
    have hpath : ∀ u, IsLocal (behindModifier u) fun d' x => Takes (c ++ (c' ++ (d ++ d'))) x.1 := by
      intro u
      refine (hrec.path false).bind fun path d' ⟨htakes, hbare⟩ => ?_
      have hplain : Takes (c ++ (c' ++ (d ++ d'))) (before ++ (mark ++ (modifier ++ path))) :=
        Takes.behind hbefore (Takes.behind hmark (Takes.behind hmodifier htakes))
      refine IsLocal.look (fun h => ?_) fun tokens => ?_
      · rw [h.atGroup, h.behind_colons (atGroup .parenthesis) fun h => h.atGroup]
      extract_lets -underBinder hasArguments behindPath
      split
      · next last hlast =>
        refine IsLocal.ite ?_ (IsLocal.pure (by simpa using hplain))
        refine (IsLocal.optionalOperator (by decide)).bind fun colons e ⟨hkeeps, hcolons⟩ => ?_
        refine hrec.functionArguments.bind fun arguments e' harguments => IsLocal.pure ?_
        have hcolons : Keeps e [] := hkeeps.nil_of_breaks (by obtain rfl | rfl := hcolons <;> decide)
        have hcall : Takes (d' ++ (e ++ e')) (path.dropLast ++ last :: arguments) := by
          simpa using Takes.behind (hbare last hlast) (Takes.behind hcolons harguments)
        simpa using Takes.behind hbefore (Takes.behind hmark (Takes.behind hmodifier hcall))
      · exact IsLocal.pure (by simpa using hplain)
    exact IsLocal.ite IsLocal.behind_rejected (hpath ())
  exact IsLocal.ite IsLocal.behind_rejected (hbehind ())

theorem bound (allowsCapture allowsConstant : Bool) : IsLocal (rec.bound allowsCapture allowsConstant) Takes := by
  refine IsLocal.look_ite (fun h => by rw [h.atLifetime]) (IsLocal.look_const IsLocal.lifetime) ?_
  refine IsLocal.look_ite (fun h => by rw [h.atWord]) (IsLocal.look_const ?_) ?_
  · exact IsLocal.ite isLocal_capture (IsLocal.throw _)
  -- A bound that has to hold in constant code is kept, and any other one is written.
  have hend : ∀ {read : List Token} {trees : Trees} {isConstant : Bool}, Takes read trees → IsLocalSince read
      (fun start => if isConstant = true then do return [← keptSince start] else pure trees) fun c =>
        Takes (read ++ c) := by
    intro read trees isConstant htakes
    refine IsLocalSince.ite (.keptSince fun tree htree => ?_) (.of_local (IsLocal.pure (by simpa using htakes)))
    have hkept : Takes read [tree] := ⟨htakes.1, Keeps.of_eq (by rw [Tree.tokensOf_singleton, htree])⟩
    simpa using hkept
  refine IsLocalSince.start (IsLocalSince.start_ite (fun h => by rw [h.atGroup]) ?_ ?_)
  · refine IsLocalSince.bind (IsLocal.within _ _) fun ⟨trees, isConstant⟩ c hc => ?_
    obtain ⟨inner, rfl⟩ := hc
    exact hend ⟨by simp, Nat.le_refl _, fun _ => Nat.le_refl _⟩
  · exact IsLocalSince.bind (hrec.traitBound allowsConstant) fun ⟨trees, isConstant⟩ c hc => hend hc

theorem selfPath (isExpression : Bool) : IsLocal (rec.selfPath isExpression) Takes := by
  refine (IsLocal.operator (by decide)).bind fun opening c hopening => hrec.anyType.bind fun self c' hself => ?_
  refine IsLocal.look (fun h => by simp only [h.atWord]) fun tokens => ?_
  extract_lets -underBinder behindTrait
  have htrait : ∀ trait d, Keeps d trait → IsLocal (behindTrait trait) fun d' => Takes (c ++ (c' ++ (d ++ d'))) := by
    intro trait d htrait
    refine (IsLocal.operator (by decide)).bind fun closing e hclosing => ?_
    refine (IsLocal.operator (by decide)).bind fun colons e' hcolons => ?_
    refine @IsLocal.bind _ _ _ Takes _ _ (IsLocal.collected_takes (fun _ _ => rfl) ?_) fun segments e'' hsegments =>
      IsLocal.pure ?_
    · refine (hrec.segment isExpression).bind fun segment e ⟨hsegment, _⟩ =>
        IsLocal.test (fun h => by rw [h.atOperator]) ?_ ?_
      · refine (IsLocal.operator (by decide)).bind fun colons e' hcolons => IsLocal.pure ?_
        simpa using hsegment.append hcolons.2
      · exact IsLocal.pure (by simpa using hsegment)
    · simpa using hopening.append (hself.2.append (htrait.append (hclosing.2.append (hcolons.2.append hsegments.2))))
  refine IsLocal.ite ?_ (htrait [] [] Keeps.nil)
  refine (IsLocal.word _).bind fun as d has => (hrec.path false).bind fun path d' ⟨hpath, _⟩ => ?_
  simpa using htrait (as ++ path) (d ++ d') (has.2.append hpath.2)

theorem anyPath (isExpression : Bool) : IsLocal (rec.anyPath isExpression) fun c x => Takes c x.2 := by
  refine IsLocal.test (fun h => by rw [h.atOperator]) ?_ ?_
  · exact (hrec.selfPath isExpression).bind fun path c hpath => IsLocal.pure (by simpa using hpath)
  · exact (hrec.path isExpression).bind fun path c ⟨hpath, _⟩ => IsLocal.pure (by simpa using hpath)

theorem plainBound : IsLocal rec.plainBound Takes :=
  hrec.bound false true

theorem typeArgument : IsLocal rec.typeArgument fun c tree => Takes c [tree] ∧ tree.isWord := by
  refine hrec.anyType.bind fun type c htype => ?_
  refine IsLocal.look_ite (fun h => by rw [h.atOperator]) (IsLocal.look_const ?_) ?_
  · refine (IsLocal.operator (by decide)).bind fun equals c' hequals => ?_
    refine IsLocal.look (fun h => by simp only [h.atLiteral, h.atGroup]) fun tokens => IsLocal.ite ?_ ?_
    · refine rec.isLocal_constantArgument.bind fun value d hvalue => IsLocal.pure ⟨?_, rfl⟩
      simpa [Tree.part] using htype.append (hequals.2.append hvalue.2)
    · refine hrec.anyType.bind fun value d hvalue => IsLocal.pure ⟨?_, rfl⟩
      simpa [Tree.part] using htype.append (hequals.2.append hvalue.2)
  refine IsLocal.look_ite (fun h => by rw [h.atOperator]) (IsLocal.look_const ?_) (IsLocal.look_const ?_)
  · refine (IsLocal.operator (by decide)).bind fun colon c' hcolon => ?_
    refine (isLocal_boundsUntil (fun h => ?_) hrec.plainBound).bind fun bounds d hbounds => IsLocal.pure ⟨?_, rfl⟩
    · simp only [h.atOperator]
    · simpa [Tree.part] using htype.append (hcolon.2.append hbounds)
  · exact IsLocal.pure ⟨by simpa using htype, rfl⟩

theorem genericArgument_rule : IsLocal rec.genericArgument fun c tree => Takes c [tree] ∧ tree.isWord := by
  refine IsLocal.congr (q := do
    let tokens ← remaining
    if atLifetime tokens && !atOperator "+" (tokens.drop 1) then lifetimeLeaf
    else if atLiteral tokens || atGroup .brace tokens then return Tree.part (← rec.constantArgument)
    else rec.typeArgument) ?_ fun ⟨tokens, o⟩ => ?_
  · refine IsLocal.look_ite (fun h => ?_) (IsLocal.look_const isLocal_lifetimeLeaf) ?_
    · rw [h.behind_head atLifetime (fun tokens => !atOperator "+" tokens) (fun h => by cases h <;> rfl)
        (fun h => h.atLifetime) fun h => by simp only [h.atOperator]]
    refine IsLocal.test (fun h => by simp only [h.atLiteral, h.atGroup]) ?_ hrec.typeArgument
    exact rec.isLocal_constantArgument.bind fun value c hvalue => IsLocal.pure ⟨by simpa [Tree.part] using hvalue, rfl⟩
  · rw [Recur.genericArgument, run_bind (run_remaining _), run_bind (run_remaining _)]
    cases tokens with
    | nil => rfl
    | cons token tokens =>
      cases token with
      | lifetime name =>
        cases hplus : atOperator "+" tokens with
        | true => simp [hplus, atLifetime, atLiteral, atGroup]
        | false =>
          simp only [hplus, atLifetime, List.drop_one, List.tail_cons, Bool.not_false, Bool.and_self, if_true,
            Bool.false_eq_true, if_false]
          rfl
      | _ => rfl

theorem jointBounds (allowsPlus isImpl : Bool) : IsLocal (rec.jointBounds allowsPlus isImpl) fun c bounds =>
    Takes c (writtenBounds bounds) := by
  refine IsLocal.collected_takes (fun a b => by simp [writtenBounds]) ?_
  refine (hrec.bound isImpl isImpl).bind fun bound c hbound => IsLocal.test (fun h => by rw [h.atOperator]) ?_ ?_
  · refine (IsLocal.operator (by decide)).bind fun plus c' hplus => ?_
    refine IsLocal.look (fun h => by rw [h.isBoundStart]) fun tokens => IsLocal.pure ?_
    simpa [writtenBounds] using hbound.append hplus.2
  · exact IsLocal.pure (by simpa [writtenBounds] using hbound)

theorem traitObject (allowsPlus isImpl : Bool) (message : String) :
    IsLocal (rec.traitObject allowsPlus isImpl message) fun c bounds => Takes c (writtenBounds bounds) :=
  (hrec.jointBounds allowsPlus isImpl).bind fun bounds c hbounds =>
    IsLocal.ite (IsLocal.pure (by simpa using hbounds)) (IsLocal.throw _)

theorem objectBounds (allowsPlus : Bool) : IsLocal (rec.objectBounds allowsPlus) fun c bounds =>
    Takes c (writtenBounds bounds) :=
  hrec.traitObject allowsPlus false _

theorem moreBounds : IsLocal rec.moreBounds Keeps := by
  refine IsLocal.collectWhile (fun h => h.atOperator) ?_
  refine (IsLocal.operator (by decide)).bind fun plus c hplus => ?_
  exact (hrec.bound false false).bind fun bound c' hbound => IsLocal.pure (by simpa using hplus.append hbound.2)

theorem parenthesizedType (allowsPlus : Bool) :
    IsLocal (rec.parenthesizedType allowsPlus) fun c tree => Takes c [tree] := by
  refine IsLocal.look_inside (fun c tree h => h.1) (fun {token} => ?_) fun tokens => ?_
  · cases token <;> exact fun _ => rfl
  extract_lets inside
  refine IsLocal.ite ?_ (IsLocal.ite ?_ (IsLocal.ite ?_ ?_))
  · exact IsLocal.anyGroup.bind fun empty c hempty => IsLocal.pure (by simpa using hempty)
  · exact (IsLocal.group _ _).bind fun bounds c hbounds => IsLocal.pure (by simpa using hbounds)
  · refine (hrec.bound false false).bind fun first c hfirst => hrec.moreBounds.bind fun more c' hmore => IsLocal.pure ?_
    simpa using hfirst.append hmore
  refine (IsLocal.within _ _).bind fun ⟨kind?, trees⟩ c hc => ?_
  obtain ⟨inner, rfl⟩ := hc
  have hgroup : ∀ inner', Takes [.group .parenthesis inner] [.group .parenthesis inner'] := fun inner' =>
    ⟨by simp, Nat.le_refl _, fun _ => Nat.le_refl _⟩
  refine IsLocal.test (fun h => by simp only [h.atOperator]) ?_ (IsLocal.pure (by simpa using hgroup trees))
  refine hrec.moreBounds.bind fun more c' hmore => IsLocal.pure ?_
  have hfirst : Takes [.group .parenthesis inner] (inOneParenthesis trees) := by
    unfold inOneParenthesis
    split
    · exact hgroup _
    · exact hgroup _
  simpa using hfirst.append hmore

theorem functionType (binder : Trees) : IsLocal (rec.functionType binder) fun c tree =>
    c ≠ [] ∧ ∀ {d}, Keeps d binder → Keeps (d ++ c) [tree] := by
  refine (IsLocal.optionalWord _).bind fun unsafety c hunsafety =>
    isLocal_linkage.bind fun convention c' hconvention => ?_
  refine (IsLocal.word _).bind fun head d hhead => (IsLocal.group _ _).bind fun parameters d' hparameters => ?_
  refine (hrec.returnType false).bind fun output e houtput => IsLocal.pure ⟨by simp [hhead.1], fun hbinder => ?_⟩
  simpa using hbinder.append (hunsafety.append (hconvention.append (hhead.2.append (hparameters.2.append houtput))))

theorem pathType (allowsPlus : Bool) (binder : Trees) : IsLocal (rec.pathType allowsPlus binder) fun c tree =>
    c ≠ [] ∧ ∀ {d}, Keeps d binder → (binder ≠ [] → 0 < binders d) → Keeps (d ++ c) [tree] := by
  refine (hrec.anyPath false).bind fun ⟨hasSelf, path⟩ c hpath => IsLocal.ite (IsLocal.pure ⟨?_, ?_⟩) ?_
  · simp [hpath.1]
  · exact fun hbinder hpos => by simpa using hbinder.without hpos hpath.2
  refine IsLocal.look_ite (fun h => by simp only [h.atOperator]) (IsLocal.look_const ?_) ?_
  · refine (IsLocal.operator (by decide)).bind fun bang c' hbang =>
      IsLocal.anyGroup.bind fun arguments d harguments => IsLocal.pure ⟨by simp [hpath.1], fun hbinder hpos => ?_⟩
    simpa using hbinder.without hpos (hpath.2.append (hbang.2.append harguments.2))
  refine IsLocal.look_ite (fun h => by simp only [h.atOperator])
    (IsLocal.look_ite (fun h => by simp only [h.atOperator]) ?_ ?_) ?_
  · refine IsLocal.look_const ((IsLocal.operator (by decide)).bind fun plus c' hplus => ?_)
    refine IsLocal.look (fun h => by simp only [h.isBoundStart]) fun tokens => IsLocal.ite ?_ ?_
    · refine (hrec.jointBounds true false).bind fun bounds d hbounds =>
        IsLocal.pure ⟨by simp [hpath.1], fun hbinder _ => ?_⟩
      simpa using hbinder.append (hpath.2.append (hplus.2.append hbounds.2))
    · refine IsLocal.pure ⟨by simp [hpath.1], fun hbinder _ => ?_⟩
      simpa using hbinder.append (hpath.2.append hplus.2)
  · exact IsLocal.look_const (IsLocal.pure ⟨by simp [hpath.1], fun hbinder _ => by simpa using hbinder.append hpath.2⟩)
  · exact IsLocal.look_const (IsLocal.pure ⟨by simp [hpath.1],
      fun hbinder hpos => by simpa using hbinder.without hpos hpath.2⟩)

theorem pointerType : IsLocal rec.pointerType fun c tree => Takes c [tree] := by
  refine (IsLocal.operator (by decide)).bind fun star c hstar => ?_
  refine IsLocal.test (fun h => by simp only [h.atWord]) ?_ (IsLocal.misplaced _)
  refine IsLocal.anyToken.bind fun access c' ⟨haccess, _⟩ => (hrec.type false).bind fun type d htype => IsLocal.pure ?_
  simpa using hstar.append (haccess.2.append htype.2)

theorem referenceType : IsLocal rec.referenceType fun c tree => Takes c [tree] := by
  refine (IsLocal.operator (by decide)).bind fun sign c hsign => ?_
  refine IsLocal.optionalLifetime.bind fun lifetime c' hlifetime => ?_
  refine (IsLocal.optionalWord _).bind fun mutable d hmutable =>
    (hrec.type false).bind fun type d' htype => IsLocal.pure ?_
  simpa using hsign.append (hlifetime.append (hmutable.append htype.2))

theorem dynamicType (allowsPlus : Bool) : IsLocal (rec.dynamicType allowsPlus) fun c tree => Takes c [tree] := by
  refine IsLocalSince.start (IsLocalSince.bind (IsLocal.word _) fun head c hhead => ?_)
  refine IsLocalSince.bind (IsLocal.optionalOperator (by decide)) fun star c' ⟨hstar, _⟩ => ?_
  refine IsLocalSince.bind (hrec.objectBounds allowsPlus) fun bounds d hbounds => ?_
  cases star with
  | nil => exact .of_local (IsLocal.pure (by simpa using hhead.append (hstar.append hbounds.2)))
  | cons =>
    refine .keptSince fun tree htree => ⟨by simp [hhead.1], keeps_node.mpr (Keeps.of_eq ?_)⟩
    rw [Tree.tokensOf_singleton, htree]
    simp

theorem boundedType (allowsPlus : Bool) : IsLocal (rec.boundedType allowsPlus) fun c tree => Takes c [tree] :=
  (IsLocal.word _).bind fun head c hhead => (hrec.traitObject allowsPlus true _).bind fun bounds c' hbounds =>
    IsLocal.pure (by simpa using hhead.append hbounds.2)

theorem type_rule (allowsPlus : Bool) : IsLocal (rec.type allowsPlus) fun c tree => Takes c [tree] := by
  refine IsLocalSince.start (IsLocalSince.bind hrec.optionalBinder fun binder c ⟨hbinder, hpos⟩ => ?_)
  have hbehind : ∀ {c' tree}, (c' ≠ [] ∧ ∀ {d}, Keeps d binder → (binder ≠ [] → 0 < binders d) →
      Keeps (d ++ c') [tree]) → Takes (c ++ c') [tree] :=
    fun h => ⟨by simp [h.1], h.2 hbinder hpos⟩
  have hwithout : ∀ {p}, IsLocal p (fun c tree => Takes c [tree]) →
      IsLocalSince c (fun _ => remaining >>= fun _ => p) fun c' tree => Takes (c ++ c') [tree] := fun hp =>
    .of_local (IsLocal.look_const (hp.mono fun c' tree h => ⟨by simp [h.1], hbinder.without hpos h.2⟩))
  refine IsLocalSince.look_ite (fun h => ?_) (.of_local (IsLocal.look_const (IsLocal.misplaced _))) ?_
  · simp only [h.atWord, h.atOneOf, h.atName, h.atPathWord]
  refine IsLocalSince.look_ite (fun h => by rw [h.atGroup]) (hwithout (hrec.parenthesizedType allowsPlus)) ?_
  refine IsLocalSince.look_ite (fun h => by rw [h.atOneOf]) (.of_local (IsLocal.look_const ?_)) ?_
  · exact (hrec.functionType binder).mono fun c' tree h => hbehind ⟨h.1, fun hd _ => h.2 hd⟩
  refine IsLocalSince.look_ite (fun h => ?_) (.look_const ?_) ?_
  · rw [atBuiltin, atBuiltin, h.behind_head (atWord "builtin") (atOperator "#") (fun h => by cases h <;> rfl)
      (fun h => h.atWord) fun h => h.atOperator]
  · refine IsLocalSince.bind isLocal_builtin fun _ c' hc => .keptSince fun tree htree => ⟨by simp [hc], ?_⟩
    refine keeps_node.mpr (Keeps.of_eq ?_)
    rw [Tree.tokensOf_singleton, htree]
    simp
  refine IsLocalSince.look_ite (fun h => ?_) (.of_local (IsLocal.look_const ?_)) ?_
  · simp only [h.atOperator, h.atName, h.atPathWord]
  · exact (hrec.pathType allowsPlus binder).mono fun c' tree h => hbehind h
  refine IsLocalSince.look_ite (fun h => by rw [h.atWord]) (hwithout (hrec.dynamicType allowsPlus)) ?_
  refine IsLocalSince.look_ite (fun h => by rw [h.atGroup]) (hwithout rec.isLocal_arrayType) ?_
  refine IsLocalSince.look_ite (fun h => by rw [h.atOperator]) (hwithout hrec.pointerType) ?_
  refine IsLocalSince.look_ite (fun h => by rw [h.atOperator]) (hwithout hrec.referenceType) ?_
  refine IsLocalSince.look_ite (fun h => by rw [h.atOperator]) (hwithout ?_) ?_
  · exact (IsLocal.operator (by decide)).bind fun never c' hnever => IsLocal.pure (by simpa using hnever)
  refine IsLocalSince.look_ite (fun h => by rw [h.atWord]) (hwithout (hrec.boundedType allowsPlus)) ?_
  refine IsLocalSince.look_ite (fun h => by rw [h.atWord]) (hwithout ?_) ?_
  · exact IsLocal.anyToken.bind fun blank c' ⟨hblank, _⟩ => IsLocal.pure (by simpa using hblank)
  refine IsLocalSince.look_ite (fun h => by rw [h.atLifetime]) (hwithout ?_) ?_
  · exact (hrec.objectBounds true).bind fun bounds c' hbounds => IsLocal.pure (by simpa using hbounds)
  · exact .of_local (IsLocal.look_const (IsLocal.misplaced _))

/-! Generic parameters -/

/-- A generic parameter. A colon without bounds behind it is left out. -/
theorem genericParameter (allowsBlank : Bool) :
    IsLocal (rec.genericParameter allowsBlank) fun c x => Takes c (x.2.1 ++ x.2.2) := by
  have hends : ∀ {T T' l}, Alike T T' → endsParameterBounds (l ++ T) = endsParameterBounds (l ++ T') := fun h => by
    simp only [endsParameterBounds, h.isEmpty, h.atOperator]
  have hempty : ∀ {c c' colon bounds}, (colon = [] ∨ colon = Tree.operator ":") → Keeps c colon → Keeps c' bounds →
      Keeps (c ++ c') (if bounds.isEmpty then [] else colon ++ bounds) := by
    intro c c' colon bounds hcolon hkeeps hbounds
    cases bounds with
    | nil =>
      have hcolon : Keeps c [] := hkeeps.nil_of_breaks (by obtain rfl | rfl := hcolon <;> decide)
      simpa using hcolon.append hbounds
    | cons => simpa using hkeeps.append hbounds
  refine rec.isLocal_outerAttributes.bind fun attributes c hattributes => ?_
  refine IsLocal.look_ite (fun h => by rw [h.atLifetime]) (IsLocal.look_const ?_) ?_
  · refine IsLocal.lifetime.bind fun name c' hname => IsLocal.test (fun h => by rw [h.atOperator]) ?_ ?_
    · refine (IsLocal.operator_eq (by decide)).bind fun colon d ⟨hcolon, hkeeps⟩ => ?_
      refine (isLocal_boundsUntil hends IsLocal.lifetime).bind fun bounds d' hbounds => IsLocal.pure ?_
      simpa using Takes.behind hattributes (hname.append (hempty (Or.inr hcolon) hkeeps.2 hbounds))
    · exact IsLocal.pure (by simpa using Takes.behind hattributes hname)
  refine IsLocal.look_ite (fun h => by rw [h.atName]) (IsLocal.look_const ?_) ?_
  · refine IsLocal.nameLeaf.bind fun name c' ⟨hname, _⟩ => ?_
    refine (IsLocal.optionalOperator (by decide)).bind fun colon d ⟨hkeeps, hcolon⟩ => ?_
    extract_lets -underBinder behindBounds
    have hbehind : ∀ bounds d', Keeps d' bounds → IsLocal (behindBounds bounds) fun e x =>
        Takes (c ++ (c' ++ (d ++ (d' ++ e)))) (x.2.1 ++ x.2.2) := by
      intro bounds d' hbounds
      have hhead := Takes.behind hattributes (hname.append (hempty hcolon hkeeps hbounds))
      refine IsLocal.test (fun h => by rw [h.atOperator]) ?_ (IsLocal.pure (by simpa using hhead))
      refine (IsLocal.operator (by decide)).bind fun equals e hequals => hrec.anyType.bind fun type e' htype =>
        IsLocal.pure ?_
      simpa using hhead.append (hequals.2.append htype.2)
    refine IsLocal.ite (hbehind [] [] Keeps.nil) ?_
    exact (isLocal_boundsUntil hends hrec.plainBound).bind fun bounds d' hbounds => hbehind bounds d' hbounds
  refine IsLocal.look_ite (fun h => by rw [h.atWord]) (IsLocal.look_const ?_) ?_
  · refine IsLocal.anyToken.bind fun head c' ⟨hhead, _⟩ => IsLocal.nameLeaf.bind fun name d ⟨hname, _⟩ => ?_
    refine (IsLocal.operator (by decide)).bind fun colon d' hcolon => hrec.anyType.bind fun type e htype => ?_
    have hconstant := Takes.behind hattributes (hhead.append (hname.2.append (hcolon.2.append htype.2)))
    refine IsLocal.test (fun h => by rw [h.atOperator]) ?_ (IsLocal.pure (by simpa using hconstant))
    refine (IsLocal.operator (by decide)).bind fun equals e hequals =>
      rec.isLocal_constantArgument.bind fun value e' hvalue => IsLocal.pure ?_
    simpa using hconstant.append (hequals.2.append hvalue.2)
  refine IsLocal.test (fun h => by rw [h.atWord]) ?_ (IsLocal.ite (IsLocal.misplaced _) (IsLocal.misplaced _))
  exact IsLocal.anyToken.bind fun blank c' ⟨hblank, _⟩ => IsLocal.pure (by simpa using Takes.behind hattributes hblank)

theorem binder_rule : IsLocal rec.binder fun c tree => Takes c [tree] ∧ 0 < binders c := by
  refine (IsLocal.word_eq _).bind fun head c ⟨hfor, hhead⟩ =>
    (IsLocal.operator (by decide)).bind fun opening c' hopening => ?_
  subst hfor hhead
  have hhead : Keeps [.word "for"] [.leaf (.word "for")] := Keeps.of_eq rfl
  refine (IsLocal.collected_trees ?_).bind fun parameters d hparameters => ?_
  · refine IsLocal.test (fun h => by rw [h.atOperator]) (IsLocal.pure ⟨Keeps.nil, nofun⟩) ?_
    refine (hrec.genericParameter false).bind fun ⟨isLifetime, parameter, default⟩ c hparameter => ?_
    refine IsLocal.test (fun h => by rw [h.atOperator]) (IsLocal.pure ⟨by simpa using hparameter.2, nofun⟩) ?_
    refine (IsLocal.operator (by decide)).bind fun comma c' hcomma =>
      IsLocal.pure ⟨?_, fun _ => by simp [hparameter.1]⟩
    simpa using hparameter.2.append hcomma.2
  · refine (IsLocal.operator (by decide)).bind fun closing d' hclosing => IsLocal.pure ⟨?_, ?_⟩
    · simpa [Tree.part, Takes] using hhead.append (hopening.2.append (hparameters.append hclosing.2))
    · simp [binders]

/-- Generic parameters of an item. Empty brackets are left out. -/
theorem generics : IsLocal rec.generics fun c x => Keeps c (GenericTree.list x.1) := by
  refine IsLocal.test (fun h => by simp only [h.atOperator]) (IsLocal.pure Keeps.nil) ?_
  refine (IsLocal.operator_eq (by decide)).bind fun opening c ⟨hless, hopening⟩ => ?_
  have hopening : Keeps c [] := hopening.2.nil_of_breaks (by rw [hless]; decide)
  refine (IsLocal.collected GenericTree.inOrder_append ?_).bind fun items c' hitems => ?_
  · refine IsLocal.test (fun h => by rw [h.atOperator]) (IsLocal.pure ⟨Keeps.nil, nofun⟩) ?_
    refine (hrec.genericParameter true).bind fun ⟨isLifetime, head, default⟩ c hparameter => ?_
    refine IsLocal.test (fun h => by rw [h.atOperator]) (IsLocal.pure ⟨by simpa using hparameter.2, nofun⟩) ?_
    refine (IsLocal.operator (by decide)).bind fun comma c' hcomma =>
      IsLocal.pure ⟨?_, fun _ => by simp [hparameter.1]⟩
    simpa using hparameter.2.append hcomma.2
  · refine (IsLocal.operator_eq (by decide)).bind fun closing d ⟨hgreater, hclosing⟩ => IsLocal.pure ?_
    have hclosing : Keeps d [] := hclosing.2.nil_of_breaks (by rw [hgreater]; decide)
    have hwritten : Keeps (c ++ (c' ++ d)) (GenericTree.inOrder items) := by
      simpa using hopening.append (hitems.append hclosing)
    simpa using hwritten.genericList

/-- A bound of a clause. -/
theorem clauseBound : IsLocal rec.clauseBound Takes := by
  have hends : ∀ {T T' l}, Alike T T' → endsClauseBounds (l ++ T) = endsClauseBounds (l ++ T') := fun h => by
    simp only [endsClauseBounds, h.isEmpty, h.atGroup, h.atOperator]
  refine IsLocal.look_ite (fun h => ?_) (IsLocal.look_const ?_) (IsLocal.look_const ?_)
  · rw [h.behind_head atLifetime (atOperator ":") (fun h => by cases h <;> rfl) (fun h => h.atLifetime)
      fun h => h.atOperator]
  · refine IsLocal.lifetime.bind fun name c hname => (IsLocal.operator (by decide)).bind fun colon c' hcolon => ?_
    refine (isLocal_boundsUntil hends IsLocal.lifetime).bind fun bounds d hbounds => IsLocal.pure ?_
    simpa using hname.append (hcolon.2.append hbounds)
  · refine hrec.optionalBinder.bind fun binder c ⟨hbinder, _⟩ => hrec.anyType.bind fun type c' htype => ?_
    refine (IsLocal.operator (by decide)).bind fun colon d hcolon => ?_
    refine (isLocal_boundsUntil hends hrec.plainBound).bind fun bounds d' hbounds => IsLocal.pure ?_
    simpa using Takes.behind hbinder (htype.append (hcolon.2.append hbounds))

theorem whereClause : IsLocal rec.whereClause fun c x => Keeps c x.1 := by
  refine IsLocal.found_word ?_ (IsLocal.pure Keeps.nil)
  have hhead : Keeps [.word "where"] [.leaf (.word "where")] := Keeps.of_eq rfl
  refine IsLocal.look (fun h => by simp only [h.atGenericParameters]) fun tokens => ?_
  extract_lets -underBinder behindHead
  have hbehind : ∀ u, IsLocal (behindHead u) fun c x => Keeps (.word "where" :: c) x.1 := by
    intro u
    refine @IsLocal.bind _ _ _ Keeps _ _ (IsLocal.collected_trees ?_) fun bounds c' hbounds => IsLocal.pure ?_
    · refine IsLocal.test (fun h => ?_) (IsLocal.pure ⟨Keeps.nil, nofun⟩) ?_
      · simp only [endsClauseBounds, h.isEmpty, h.atGroup, h.atOperator]
      refine hrec.clauseBound.bind fun bound c' hbound => IsLocal.test (fun h => by rw [h.atOperator]) ?_ ?_
      · refine (IsLocal.operator (by decide)).bind fun comma d hcomma =>
          IsLocal.pure ⟨?_, fun _ => by simp [hbound.1]⟩
        simpa using hbound.2.append hcomma.2
      · exact IsLocal.pure ⟨by simpa using hbound.2, nofun⟩
    · cases bounds with
      | nil =>
        have hnone : Keeps [.word "where"] [] := hhead.nil_of_breaks rfl
        simpa using hnone.append hbounds
      | cons => simpa using hhead.append hbounds
  exact IsLocal.ite IsLocal.behind_rejected (hbehind ())

end IsLocalRecur

end CommandBinding.Source
