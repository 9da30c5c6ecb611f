import CommandBinding.Proofs.LocalTypes
import CommandBinding.Source.Grammar

/-!
Patterns do not look beyond a comma or a group in parentheses, and neither does any other part of the grammar that a
signature is made of.
-/
namespace CommandBinding.Source

open CommandBinding.Source.Parser

theorem Keeps.of_counts {c : List Token} {trees trees' : Trees} (h : Keeps c trees)
    (hbinders : binders (Tree.tokensOf trees') = binders (Tree.tokensOf trees))
    (hbreaks : breaks (Tree.tokensOf trees') = breaks (Tree.tokensOf trees)) : Keeps c trees' := by
  rwa [Keeps, hbinders, hbreaks]

theorem isLocal_rangeOperator : IsLocal rangeOperator Takes := by
  refine IsLocal.look_ite (fun h => by rw [h.atOperator]) (IsLocal.look_const (IsLocal.operator (by decide))) ?_
  refine IsLocal.test (fun h => by rw [h.atOperator]) ?_ (IsLocal.operator (by decide))
  refine (IsLocal.operator_eq (by decide)).bind fun dots c ⟨hdots, hne, hkeeps⟩ => IsLocal.pure ⟨by simpa using hne, ?_⟩
  subst hdots
  have hwritten : Keeps c (Tree.operator "..=") := hkeeps.of_counts (by decide) (by decide)
  simpa using hwritten

theorem isLocal_properRangeOperator : IsLocal properRangeOperator Takes := by
  refine IsLocal.look_ite (fun h => by rw [h.atOperator]) (IsLocal.look_const (IsLocal.operator (by decide))) ?_
  exact IsLocal.test (fun h => by rw [h.atOperator, h.atOperator]) (IsLocal.operator (by decide))
    (IsLocal.misplaced _)

namespace Recur

variable (rec : Recur)

theorem isLocal_constantBlock : IsLocal rec.constantBlock Takes :=
  (IsLocal.word _).bind fun head c hhead => rec.isLocal_blockBehind.bind fun block c' hblock =>
    IsLocal.pure (by simpa using hhead.append hblock.2)

theorem isLocal_slicePattern : IsLocal rec.slicePattern fun c tree => Takes c [tree] :=
  (IsLocal.group _ _).bind fun items c hitems => IsLocal.pure (by simpa using hitems)

end Recur

namespace IsLocalRecur

variable {rec : Recur} (hrec : IsLocalRecur rec)
include hrec

theorem rangeBound : IsLocal rec.rangeBound fun c bound =>
    Keeps c (bound.getD []) ∧ ∀ trees ∈ bound, Takes c trees := by
  refine IsLocal.look_ite (fun h => ?_) (IsLocal.look_const (IsLocal.pure ⟨Keeps.nil, nofun⟩)) ?_
  · simp only [h.isEmpty, h.atOperator, h.atWord]
  have hsome : ∀ {p : Parser Trees}, IsLocal p Takes →
      IsLocal (do return some (← p)) fun c bound => Keeps c (bound.getD []) ∧ ∀ trees ∈ bound, Takes c trees :=
    fun hp => hp.bind fun trees c htrees => IsLocal.pure ⟨by simpa using htrees.2, by simpa using htrees⟩
  refine IsLocal.look_ite (fun h => by rw [h.atLiteral]) (IsLocal.look_const ?_) ?_
  · exact IsLocal.literal.bind fun number c hnumber => IsLocal.pure ⟨by simpa using hnumber.2, by simpa using hnumber⟩
  refine IsLocal.look_ite (fun h => ?_) (IsLocal.look_const ?_) ?_
  · simp only [h.atName, h.atOperator, h.atPathWord]
  · exact (hrec.anyPath true).bind fun ⟨_, path⟩ c hpath => IsLocal.pure ⟨by simpa using hpath.2, by simpa using hpath⟩
  exact IsLocal.test (fun h => by rw [h.atWord]) (hsome rec.isLocal_constantBlock) (IsLocal.misplaced _)

theorem rangePattern {lower : Trees} {d : List Token} (hlower : Keeps d lower) :
    IsLocal (rec.rangePattern lower) fun c tree => Takes (d ++ c) [tree] := by
  refine isLocal_rangeOperator.bind fun range c hrange => hrec.rangeBound.bind fun bound c' ⟨hbound, _⟩ => ?_
  cases bound with
  | none =>
    refine IsLocal.ite (IsLocal.misplaced _) (IsLocal.pure ?_)
    simpa using Takes.behind hlower (hrange.append hbound)
  | some upper =>
    refine IsLocal.pure ?_
    simpa using Takes.behind hlower (hrange.append hbound)

theorem upToPattern : IsLocal rec.upToPattern fun c tree => Takes c [tree] := by
  refine isLocal_properRangeOperator.bind fun range c hrange => hrec.rangeBound.bind fun bound c' ⟨hbound, _⟩ => ?_
  cases bound with
  | none =>
    refine IsLocal.ite (IsLocal.misplaced _) (IsLocal.pure ?_)
    simpa using hrange.append hbound
  | some upper => exact IsLocal.pure (by simpa using hrange.append hbound)

theorem pathPattern : IsLocal rec.pathPattern fun c tree => Takes c [tree] := by
  refine (hrec.anyPath true).bind fun ⟨hasSelf, path⟩ c hpath => ?_
  refine IsLocal.look_ite (fun h => by simp only [h.atOperator]) (IsLocal.look_const ?_) ?_
  · refine (IsLocal.operator (by decide)).bind fun bang c' hbang =>
      IsLocal.anyGroup.bind fun arguments d harguments => IsLocal.pure ?_
    simpa using hpath.append (hbang.2.append harguments.2)
  have hgroup : ∀ delimiter inside, IsLocal (do return .node .pattern (path ++ (← group delimiter inside)))
      fun c' tree => Takes (c ++ c') [tree] := fun delimiter inside =>
    (IsLocal.group delimiter inside).bind fun fields c' hfields => IsLocal.pure (by simpa using hpath.append hfields.2)
  refine IsLocal.look_ite (fun h => by rw [h.atGroup]) (IsLocal.look_const (hgroup _ _)) ?_
  refine IsLocal.look_ite (fun h => by rw [h.atGroup]) (IsLocal.look_const (hgroup _ _)) ?_
  refine IsLocal.test (fun h => by rw [h.atOperator]) (hrec.rangePattern hpath.2) (IsLocal.pure ?_)
  simpa using hpath

theorem literalPattern : IsLocal rec.literalPattern fun c tree => Takes c [tree] := by
  refine hrec.rangeBound.bind fun bound c ⟨_, hbound⟩ => ?_
  cases bound with
  | none => exact IsLocal.misplaced _
  | some bound =>
    have hbound := hbound bound rfl
    refine IsLocal.test (fun h => by rw [h.atOperator]) (hrec.rangePattern hbound.2) (IsLocal.pure ?_)
    simpa using hbound

theorem bindingPattern : IsLocal rec.bindingPattern fun c tree => Takes c [tree] := by
  refine (IsLocal.optionalWord _).bind fun reference c hreference =>
    (IsLocal.optionalWord _).bind fun mutable c' hmutable => ?_
  refine IsLocal.look (fun h => by simp only [h.atWord]) fun tokens => ?_
  extract_lets -underBinder behindName
  have hname : ∀ name d, Takes d name →
      IsLocal (behindName name) fun d' tree => Takes (c ++ (c' ++ (d ++ d'))) [tree] := by
    intro name d hname
    have hhead := Takes.behind hreference (Takes.behind hmutable hname)
    refine IsLocal.test (fun h => by rw [h.atOperator]) ?_ (IsLocal.pure (by simpa using hhead))
    refine (IsLocal.operator (by decide)).bind fun sign e hsign => hrec.pattern.bind fun inner e' hinner =>
      IsLocal.pure ?_
    simpa using hhead.append (hsign.2.append hinner.2)
  refine IsLocal.ite ?_ ?_
  · exact IsLocal.anyToken.bind fun self d hself => hname self d hself.1
  · exact IsLocal.nameLeaf.bind fun name d hname' => hname name d hname'.1

theorem pattern_rule : IsLocal rec.pattern fun c tree => Takes c [tree] := by
  refine IsLocal.look_ite (fun {_ _ l} h => ?_) (IsLocal.look_const hrec.pathPattern) ?_
  · have hname := h.behind_head (l := l) atName (fun tokens => atOperator "::" tokens || atOperator "!" tokens ||
      atOperator ".." tokens || atGroup .brace tokens || atGroup .parenthesis tokens) (fun h => by cases h <;> rfl)
      (fun h => h.atName) fun h => by simp only [h.atOperator, h.atGroup]
    have hself := h.behind_head (l := l) (atWord "self") (atOperator "::") (fun h => by cases h <;> rfl)
      (fun h => h.atWord) fun h => h.atOperator
    rw [hname, hself, h.atOperator, h.atOperator, h.atOneOf]
  refine IsLocal.look_ite (fun h => by rw [h.atWord]) (IsLocal.look_const ?_) ?_
  · exact IsLocal.anyToken.bind fun blank c hblank => IsLocal.pure (by simpa using hblank.1)
  refine IsLocal.look_ite (fun h => by rw [h.atWord]) (IsLocal.look_const ?_) ?_
  · have hinside : IsLocal (do let _ ← anyToken; rec .pattern) fun c _ => c ≠ [] :=
      IsLocal.anyToken.bind fun head c hhead => hrec.pattern.mono fun _ _ _ => by simp [hhead.1.1]
    refine hinside.verbatim.mono fun c tree ⟨htokens, _, hne⟩ => ⟨hne, Keeps.of_eq ?_⟩
    rw [Tree.tokensOf_singleton, htokens]
  refine IsLocal.look_ite (fun h => by simp only [h.atOperator, h.atLiteral, h.atWord])
    (IsLocal.look_const hrec.literalPattern) ?_
  refine IsLocal.look_ite (fun h => by simp only [h.atOneOf, h.atName]) (IsLocal.look_const hrec.bindingPattern) ?_
  refine IsLocal.look_ite (fun h => by rw [h.atOperator]) (IsLocal.look_const ?_) ?_
  · refine (IsLocal.operator (by decide)).bind fun sign c hsign =>
      (IsLocal.optionalWord _).bind fun mutable c' hmutable => ?_
    refine hrec.pattern.bind fun pattern d hpattern => IsLocal.pure ?_
    simpa using hsign.append (hmutable.append hpattern.2)
  refine IsLocal.look_ite (fun h => by rw [h.atGroup]) (IsLocal.look_const ?_) ?_
  · exact (IsLocal.group _ _).bind fun items c hitems => IsLocal.pure (by simpa using hitems)
  refine IsLocal.look_ite (fun h => by rw [h.atGroup]) (IsLocal.look_const rec.isLocal_slicePattern) ?_
  exact IsLocal.test (fun h => by simp only [h.atOperator]) hrec.upToPattern (IsLocal.misplaced _)

end IsLocalRecur

theorem isLocalRecur_grammar (depth : Nat) : IsLocalRecur (grammar depth) := by
  induction depth with
  | zero => exact ⟨fun _ => IsLocal.throw _, IsLocal.throw _, IsLocal.throw _, IsLocal.throw _⟩
  | succ depth ih =>
    exact ⟨fun allowsPlus => ih.type_rule allowsPlus, ih.genericArgument_rule, ih.binder_rule, ih.pattern_rule⟩

end CommandBinding.Source
