import CommandBinding.Proofs.RepeatedSteps
import Mathlib.Data.List.Basic

/-!
Parsers that do not look beyond a comma or a group in parentheses. Such a parser reads what stands in front of one of
these whatever is behind it or in the group. What the rules of types write has as many of them as what they have read,
or more, so the places of both can be told from their numbers.
-/
namespace CommandBinding.Source

open CommandBinding.Source.Parser

def isBreak : Token → Bool
  | .mark c _ => c == ','
  | .group delimiter _ => delimiter = .parenthesis
  | _ => false

/-- How many tokens are commas or groups in parentheses. -/
def breaks (tokens : List Token) : Nat :=
  tokens.countP isBreak

/-- How many tokens are the word that stands in front of generic parameters of a type. -/
def binders (tokens : List Token) : Nat :=
  tokens.countP (· = .word "for")

/-- Whether two lists of tokens begin with a comma each, or with a group in parentheses each. -/
inductive Alike : List Token → List Token → Prop
  | comma (rest rest' : List Token) : Alike (.mark ',' false :: rest) (.mark ',' false :: rest')
  | parentheses (inner inner' rest rest' : List Token) :
    Alike (.group .parenthesis inner :: rest) (.group .parenthesis inner' :: rest')

section Counts

variable {c c' tokens : List Token} {tree : Tree} {trees trees' : Trees}

theorem breaks_append : breaks (c ++ c') = breaks c + breaks c' :=
  List.countP_append

theorem binders_append : binders (c ++ c') = binders c + binders c' :=
  List.countP_append

theorem Tree.tokensOf_append : Tree.tokensOf (trees ++ trees') = Tree.tokensOf trees ++ Tree.tokensOf trees' := by
  induction trees with
  | nil => rfl
  | cons tree trees ih => simp [Tree.tokensOf, ih]

theorem Tree.tokensOf_singleton : Tree.tokensOf [tree] = tree.tokens := by
  simp [Tree.tokensOf]

theorem Tree.tokensOf_leaves : Tree.tokensOf (Tree.leaves tokens) = tokens := by
  induction tokens with
  | nil => rfl
  | cons token tokens ih =>
    rw [Tree.leaves] at ih
    simp [Tree.leaves, Tree.tokensOf, Tree.tokens, ih]

/-- What is written of the tokens `c` has all of their breaks, unless generic parameters of a type are not written. -/
def Keeps (c : List Token) (trees : Trees) : Prop :=
  binders (Tree.tokensOf trees) ≤ binders c ∧
    (binders c ≤ binders (Tree.tokensOf trees) → breaks c ≤ breaks (Tree.tokensOf trees))

def Takes (c : List Token) (trees : Trees) : Prop :=
  c ≠ [] ∧ Keeps c trees

namespace Keeps

theorem nil : Keeps [] [] :=
  ⟨Nat.le_refl 0, fun _ => Nat.le_refl 0⟩

theorem of_eq (h : c = Tree.tokensOf trees) : Keeps c trees :=
  ⟨h ▸ Nat.le_refl _, fun _ => h ▸ Nat.le_refl _⟩

theorem congr (h : Keeps c trees) (heq : Tree.tokensOf trees' = Tree.tokensOf trees) : Keeps c trees' := by
  rwa [Keeps, heq]

theorem append (h : Keeps c trees) (h' : Keeps c' trees') : Keeps (c ++ c') (trees ++ trees') := by
  simp only [Keeps, Tree.tokensOf_append, breaks_append, binders_append] at *
  omega

theorem nil_of_breaks (h : Keeps c trees) (hbreaks : breaks (Tree.tokensOf trees) = 0) : Keeps c [] :=
  ⟨Nat.zero_le _, fun hle => Nat.le_trans (h.2 (Nat.le_trans hle (Nat.zero_le _))) (Nat.le_of_eq hbreaks)⟩

/-- Generic parameters of a type may be left out. -/
theorem without {binder : Trees} (hbinder : Keeps c binder) (hpos : binder ≠ [] → 0 < binders c) (h : Keeps c' trees) :
    Keeps (c ++ c') trees := by
  by_cases hnil : binder = []
  · subst hnil
    exact hbinder.append h
  · have hpos := hpos hnil
    simp only [Keeps, binders_append, breaks_append] at h ⊢
    omega

end Keeps

@[simp] theorem keeps_node {kind : Kind} : Keeps c [.node kind trees] ↔ Keeps c trees := by
  simp only [Keeps, Tree.tokensOf_singleton, Tree.tokens]

@[simp] theorem takes_node {kind : Kind} : Takes c [.node kind trees] ↔ Takes c trees := by
  simp only [Takes, keeps_node]

namespace Takes

theorem append (h : Takes c trees) (h' : Keeps c' trees') : Takes (c ++ c') (trees ++ trees') :=
  ⟨by simp [h.1], h.2.append h'⟩

theorem behind (h : Keeps c trees) (h' : Takes c' trees') : Takes (c ++ c') (trees ++ trees') :=
  ⟨by simp [h'.1], h.append h'.2⟩

end Takes

end Counts

/-! Tests in front of two alike lists -/

namespace Alike

variable {T T' l l' : List Token}

theorem symm (h : Alike T T') : Alike T' T := by
  cases h with
  | comma => exact .comma _ _
  | parentheses => exact .parentheses _ _ _ _

theorem isEmpty (h : Alike T T') : (l ++ T).isEmpty = (l ++ T').isEmpty := by
  cases h <;> cases l <;> rfl

/-- A test of the first token finds the same in both, if it does not look into the group. -/
theorem of_head {test : List Token → Bool} (hhead : ∀ token rest rest', test (token :: rest) = test (token :: rest'))
    (hgroup : ∀ inner inner', test [.group .parenthesis inner] = test [.group .parenthesis inner']) (h : Alike T T') :
    test (l ++ T) = test (l ++ T') := by
  cases l with
  | cons token l => exact hhead _ _ _
  | nil =>
    cases h with
    | comma => exact hhead _ _ _
    | parentheses inner inner' => exact (hhead _ _ []).trans ((hgroup inner inner').trans (hhead _ _ _))

theorem atWord {word : String} (h : Alike T T') : atWord word (l ++ T) = Source.atWord word (l ++ T') :=
  h.of_head (fun token _ _ => by cases token <;> rfl) fun _ _ => rfl

theorem atOneOf {words : List String} (h : Alike T T') : atOneOf words (l ++ T) = Source.atOneOf words (l ++ T') := by
  simp only [Source.atOneOf, h.atWord]

theorem atPathWord (h : Alike T T') : atPathWord (l ++ T) = Source.atPathWord (l ++ T') :=
  h.atOneOf

theorem atAnyWord (h : Alike T T') : atAnyWord (l ++ T) = Source.atAnyWord (l ++ T') :=
  h.of_head (fun token _ _ => by cases token <;> rfl) fun _ _ => rfl

theorem atName (h : Alike T T') : atName (l ++ T) = Source.atName (l ++ T') :=
  h.of_head (fun token _ _ => by cases token <;> rfl) fun _ _ => rfl

theorem atLifetime (h : Alike T T') : atLifetime (l ++ T) = Source.atLifetime (l ++ T') :=
  h.of_head (fun token _ _ => by cases token <;> rfl) fun _ _ => rfl

theorem atGroup {delimiter : Delimiter} (h : Alike T T') :
    atGroup delimiter (l ++ T) = Source.atGroup delimiter (l ++ T') :=
  h.of_head (fun token _ _ => by cases token <;> rfl) fun _ _ => rfl

theorem atAnyGroup (h : Alike T T') : atAnyGroup (l ++ T) = Source.atAnyGroup (l ++ T') :=
  h.of_head (fun token _ _ => by cases token <;> rfl) fun _ _ => rfl

theorem atString (h : Alike T T') : atString (l ++ T) = Source.atString (l ++ T') :=
  h.of_head (fun token _ _ => by cases token <;> rfl) fun _ _ => rfl

theorem atLiteral (h : Alike T T') : atLiteral (l ++ T) = Source.atLiteral (l ++ T') := by
  cases l with
  | nil => cases h <;> rfl
  | cons token l =>
    cases token with
    | mark c joint =>
      cases l with
      | nil => cases h <;> simp [Source.atLiteral]
      | cons token l => by_cases hc : c = '-' <;> cases token <;> simp [Source.atLiteral, hc]
    | _ => rfl

theorem isSome_behindOperator? {cs : List Char} (h : Alike T T') :
    (behindOperator? cs (l ++ T)).isSome = (behindOperator? cs (l ++ T')).isSome := by
  induction cs generalizing l with
  | nil => rfl
  | cons c cs ih =>
    cases l with
    | nil =>
      cases h with
      | comma =>
        cases cs with
        | nil => by_cases hc : c = ',' <;> simp [behindOperator?, hc]
        | cons c' cs => simp [behindOperator?]
      | parentheses => simp [behindOperator?]
    | cons token l =>
      cases token with
      | mark d joint =>
        cases cs with
        | nil => by_cases hd : c = d <;> simp [behindOperator?, hd]
        | cons c' cs => by_cases hd : c = d <;> cases joint <;> simp [behindOperator?, hd, ih]
      | _ => simp [behindOperator?]

theorem atOperator {operator : String} (h : Alike T T') :
    atOperator operator (l ++ T) = Source.atOperator operator (l ++ T') :=
  h.isSome_behindOperator?

end Alike

/-- An operator is read token by token, and only its last token may be followed by anything. -/
theorem exists_of_behindOperator? {cs : List Char} {tokens rest : List Token}
    (h : behindOperator? cs tokens = some rest) :
    ∃ c, tokens = c ++ rest ∧ c.length = cs.length ∧ Keeps c (Tree.leaves (Token.operatorOf cs)) ∧
      ∀ behind, behindOperator? cs (c ++ behind) = some behind := by
  induction cs generalizing tokens with
  | nil => exact ⟨[], by simpa [behindOperator?] using h, rfl, Keeps.nil, fun _ => rfl⟩
  | cons c cs ih =>
    cases tokens with
    | nil => simp [behindOperator?] at h
    | cons token tokens =>
      cases token with
      | mark d joint =>
        cases cs with
        | nil =>
          simp only [behindOperator?, Option.ite_none_right_eq_some, Option.some.injEq] at h
          obtain ⟨rfl, rfl⟩ := h
          exact ⟨[.mark c joint], rfl, rfl, ⟨Nat.le_refl _, fun _ => Nat.le_refl _⟩, fun _ => by simp [behindOperator?]⟩
        | cons c' cs =>
          simp only [behindOperator?, Bool.and_eq_true, decide_eq_true_eq, Option.ite_none_right_eq_some] at h
          obtain ⟨⟨rfl, rfl⟩, h⟩ := h
          obtain ⟨read, rfl, hlength, hkeeps, hexact⟩ := ih h
          have hmark : Keeps [.mark c true] [.leaf (.mark c true)] := ⟨Nat.le_refl _, fun _ => Nat.le_refl _⟩
          exact ⟨.mark c true :: read, rfl, by simp [hlength], hmark.append hkeeps,
            fun behind => by simp [behindOperator?, hexact]⟩
      | _ => simp [behindOperator?] at h

/-- Whether a parser reads the same in front of alike lists, where `P` holds of what it reads and what it makes of
it. -/
structure IsLocal {α : Type} (p : Parser α) (P : List Token → α → Prop) : Prop where
  reads : ∀ {r r' : Reading} {value : α}, p r = .ok (value, r') → ∃ c, r.tokens = c ++ r'.tokens ∧ P c value
  again : ∀ {T T' l l' : List Token} {o o' : Option Delimiter} {value : α}, Alike T T' →
    p ⟨l ++ T, o⟩ = .ok (value, ⟨l' ++ T, o'⟩) → p ⟨l ++ T', o⟩ = .ok (value, ⟨l' ++ T', o'⟩)

/-- The same for what goes on behind the tokens `read`, and may keep all that has been read since they began. -/
structure IsLocalSince {α : Type} (read : List Token) (step : List Token → Parser α) (P : List Token → α → Prop) :
    Prop where
  reads : ∀ {r r' : Reading} {value : α}, step (read ++ r.tokens) r = .ok (value, r') →
    ∃ c, r.tokens = c ++ r'.tokens ∧ P c value
  again : ∀ {T T' l l' : List Token} {o o' : Option Delimiter} {value : α}, Alike T T' →
    step (read ++ (l ++ T)) ⟨l ++ T, o⟩ = .ok (value, ⟨l' ++ T, o'⟩) →
      step (read ++ (l ++ T')) ⟨l ++ T', o⟩ = .ok (value, ⟨l' ++ T', o'⟩)

namespace IsLocalSince

variable {α β : Type} {p : Parser α} {P : List Token → α → Prop} {R : List Token → β → Prop} {read : List Token}

theorem of_local (h : IsLocal p P) : IsLocalSince read (fun _ => p) P :=
  ⟨h.reads, h.again⟩

theorem isLocal (h : IsLocalSince read (fun _ => p) P) : IsLocal p P :=
  ⟨h.reads, h.again⟩

/-- Nothing has been read where the tokens are looked at. -/
theorem start {step : List Token → Parser α} (h : IsLocalSince [] step P) : IsLocal (remaining >>= step) P where
  reads hrun := h.reads (run_remaining_bind_iff.mp hrun)
  again halike hrun := run_remaining_bind_iff.mpr (h.again halike (run_remaining_bind_iff.mp hrun))

theorem bind {step : List Token → α → Parser β} (hp : IsLocal p P)
    (hstep : ∀ value c, P c value → IsLocalSince (read ++ c) (fun start => step start value) fun c' => R (c ++ c')) :
    IsLocalSince read (fun start => p >>= step start) R where
  reads hrun := by
    obtain ⟨value, s, hfirst, hrest⟩ := run_bind_iff.mp hrun
    obtain ⟨c, htokens, hc⟩ := hp.reads hfirst
    rw [htokens, ← List.append_assoc] at hrest
    obtain ⟨c', htokens', hc'⟩ := (hstep value c hc).reads hrest
    exact ⟨c ++ c', by rw [htokens, htokens', List.append_assoc], hc'⟩
  again {T T' l l' o o' value'} halike hrun := by
    obtain ⟨value, ⟨tokens, o⟩, hfirst, hrest⟩ := run_bind_iff.mp hrun
    obtain ⟨c, htokens, hc⟩ := hp.reads hfirst
    have hstep := hstep value c hc
    dsimp only at htokens
    rw [htokens, ← List.append_assoc] at hrest
    obtain ⟨c', rfl, -⟩ := hstep.reads (r := ⟨tokens, o⟩) hrest
    -- What the first part has read is the same in front of both lists.
    obtain rfl : l = c ++ (c' ++ l') := by
      rw [← List.append_assoc c', ← List.append_assoc c] at htokens
      exact List.append_cancel_right htokens
    rw [← List.append_assoc c'] at hfirst hrest
    have hagain := hstep.again halike hrest
    rw [List.append_assoc read, ← List.append_assoc c] at hagain
    exact run_bind_iff.mpr ⟨value, _, hp.again halike hfirst, hagain⟩

theorem ite {c : Prop} [Decidable c] {step other : List Token → Parser α} (hstep : IsLocalSince read step P)
    (hother : IsLocalSince read other P) :
    IsLocalSince read (fun start => if c then step start else other start) P := by
  split
  · exact hstep
  · exact hother

/-- What goes on as a test of the first tokens tells. -/
theorem start_ite {c : List Token → Prop} [∀ tokens, Decidable (c tokens)] {step other : List Token → Parser α}
    (hblind : ∀ {T T' l : List Token}, Alike T T' → (c (l ++ T) ↔ c (l ++ T'))) (hstep : IsLocalSince read step P)
    (hother : IsLocalSince read other P) :
    IsLocalSince read (fun start => if c start then step start else other start) P where
  reads {r r' value} hrun := by
    split at hrun
    · exact hstep.reads hrun
    · exact hother.reads hrun
  again {T T' l l' o o' value} halike hrun := by
    have hblind : c (read ++ (l ++ T)) ↔ c (read ++ (l ++ T')) := by
      rw [← List.append_assoc, ← List.append_assoc]
      exact hblind halike
    split at hrun
    · next h =>
      rw [if_pos (hblind.mp h)]
      exact hstep.again halike hrun
    · next h =>
      rw [if_neg (mt hblind.mpr h)]
      exact hother.again halike hrun

theorem look_const {step : List Token → Parser α} (h : IsLocalSince read step P) :
    IsLocalSince read (fun start => remaining >>= fun _ => step start) P where
  reads hrun := h.reads (run_remaining_bind_iff.mp hrun)
  again halike hrun := run_remaining_bind_iff.mpr (h.again halike (run_remaining_bind_iff.mp hrun))

/-- What goes on as a test of the tokens in front tells. -/
theorem look_ite {c : List Token → Prop} [∀ tokens, Decidable (c tokens)]
    {step other : List Token → List Token → Parser α}
    (hblind : ∀ {T T' l : List Token}, Alike T T' → (c (l ++ T) ↔ c (l ++ T')))
    (hstep : IsLocalSince read (fun start => remaining >>= step start) P)
    (hother : IsLocalSince read (fun start => remaining >>= other start) P) :
    IsLocalSince read
      (fun start => remaining >>= fun tokens => if c tokens then step start tokens else other start tokens) P where
  reads {r r' value} hrun := by
    have hrun := run_remaining_bind_iff.mp hrun
    split at hrun
    · exact hstep.reads (run_remaining_bind_iff.mpr hrun)
    · exact hother.reads (run_remaining_bind_iff.mpr hrun)
  again {T T' l l' o o' value} halike hrun := by
    have hrun := run_remaining_bind_iff.mp hrun
    refine run_remaining_bind_iff.mpr ?_
    split at hrun
    · next h =>
      rw [if_pos ((hblind halike).mp h)]
      exact run_remaining_bind_iff.mp (hstep.again halike (run_remaining_bind_iff.mpr hrun))
    · next h =>
      rw [if_neg (mt (hblind halike).mpr h)]
      exact run_remaining_bind_iff.mp (hother.again halike (run_remaining_bind_iff.mpr hrun))

/-- What is kept is all that has been read. -/
theorem keptSince {f : Tree → α} (h : ∀ tree, tree.tokens = read → P [] (f tree)) :
    IsLocalSince read (fun start => do return f (← keptSince start)) P where
  reads {r r' value} hrun := by
    obtain ⟨tree, s, hkept, hrun⟩ := run_bind_iff.mp hrun
    rw [Parser.keptSince, run_remaining_bind_iff] at hkept
    obtain ⟨rfl, rfl⟩ := run_pure_iff.mp hkept
    obtain ⟨rfl, rfl⟩ := run_pure_iff.mp hrun
    exact ⟨[], rfl, h _ (by simp [Tree.tokens, Tree.tokensOf_leaves])⟩
  again {T T' l l' o o' value} halike hrun := by
    obtain ⟨tree, s, hkept, hrun⟩ := run_bind_iff.mp hrun
    rw [Parser.keptSince, run_remaining_bind_iff] at hkept
    obtain ⟨rfl, rfl⟩ := run_pure_iff.mp hkept
    obtain ⟨rfl, heq⟩ := run_pure_iff.mp hrun
    obtain ⟨htokens, rfl⟩ := Reading.mk.inj heq
    obtain rfl := List.append_cancel_right htokens
    rw [run_bind_iff]
    refine ⟨_, _, run_remaining_bind_iff.mpr rfl, ?_⟩
    simp [run_pure_iff]

end IsLocalSince

namespace IsLocal

variable {α β : Type} {p : Parser α} {P Q : List Token → α → Prop} {R : List Token → β → Prop}

theorem mono (h : IsLocal p P) (hPQ : ∀ c value, P c value → Q c value) : IsLocal p Q where
  reads hrun := by
    obtain ⟨c, htokens, hc⟩ := h.reads hrun
    exact ⟨c, htokens, hPQ c _ hc⟩
  again := h.again

/-- What stands behind what is read may be exchanged. -/
theorem swap {T T' l : List Token} {o o' : Option Delimiter} {value : α} (h : IsLocal p P) (halike : Alike T T')
    (hrun : p ⟨l ++ T, o⟩ = .ok (value, ⟨T, o'⟩)) : p ⟨l ++ T', o⟩ = .ok (value, ⟨T', o'⟩) := by
  have hrun : p ⟨l ++ T, o⟩ = .ok (value, ⟨[] ++ T, o'⟩) := hrun
  exact h.again halike hrun

theorem bind {step : α → Parser β} (hp : IsLocal p P)
    (hstep : ∀ value c, P c value → IsLocal (step value) fun c' => R (c ++ c')) : IsLocal (p >>= step) R := by
  have hbind : IsLocalSince [] (fun _ => p >>= step) R :=
    IsLocalSince.bind hp fun value c hc => .of_local (hstep value c hc)
  exact hbind.isLocal

theorem pure {value : α} (h : P [] value) : IsLocal (Pure.pure value) P where
  reads hrun := by
    obtain ⟨rfl, rfl⟩ := run_pure_iff.mp hrun
    exact ⟨[], rfl, h⟩
  again halike hrun := by
    obtain ⟨rfl, heq⟩ := run_pure_iff.mp hrun
    obtain ⟨htokens, rfl⟩ := Reading.mk.inj heq
    rw [List.append_cancel_right htokens]
    rfl

theorem throw (e : ParseError) : IsLocal (throw e : Parser α) P where
  reads hrun := by cases hrun
  again _ hrun := by cases hrun

theorem misplaced (text : String) : IsLocal (Parser.misplaced text : Parser α) P where
  reads hrun := absurd hrun run_misplaced_ne
  again _ hrun := absurd hrun run_misplaced_ne

/-- Nothing follows where something is not allowed. -/
theorem behind_rejected {text : String} {step : α → Parser β} : IsLocal ((rejected text : Parser α) >>= step) R :=
  (throw (P := fun _ _ => False) _).bind fun _ _ h => h.elim

theorem ite_of {c : Prop} [Decidable c] {other : Parser α} (hp : c → IsLocal p P) (hother : ¬c → IsLocal other P) :
    IsLocal (if c then p else other) P := by
  split
  · next h => exact hp h
  · next h => exact hother h

theorem ite {c : Prop} [Decidable c] {other : Parser α} (hp : IsLocal p P) (hother : IsLocal other P) :
    IsLocal (if c then p else other) P :=
  ite_of (fun _ => hp) fun _ => hother

/-- A parser that looks at the tokens in front, and does the same in front of alike lists. -/
theorem look {step : List Token → Parser α}
    (hblind : ∀ {T T' l : List Token}, Alike T T' → step (l ++ T) = step (l ++ T'))
    (hstep : ∀ tokens, IsLocal (step tokens) P) : IsLocal (remaining >>= step) P where
  reads hrun := (hstep _).reads (run_remaining_bind_iff.mp hrun)
  again halike hrun := by
    have hrun := run_remaining_bind_iff.mp hrun
    rw [hblind halike] at hrun
    exact run_remaining_bind_iff.mpr ((hstep _).again halike hrun)

/-- A parser that reads something, so that the token in front stands before the alike lists. -/
theorem look_inside {step : List Token → Parser α} (hne : ∀ c value, P c value → c ≠ [])
    (hblind : ∀ {token : Token} {T T' l : List Token}, Alike T T' → step (token :: l ++ T) = step (token :: l ++ T'))
    (hstep : ∀ tokens, IsLocal (step tokens) P) : IsLocal (remaining >>= step) P where
  reads hrun := (hstep _).reads (run_remaining_bind_iff.mp hrun)
  again {T T' l l' o o' value} halike hrun := by
    have hrun := run_remaining_bind_iff.mp hrun
    cases l with
    | nil =>
      obtain ⟨c, htokens, hc⟩ := (hstep _).reads hrun
      have hlength := congrArg List.length htokens
      have hpos := List.length_pos_iff.mpr (hne c value hc)
      simp only [List.length_append, List.length_nil] at hlength
      omega
    | cons token l =>
      rw [hblind halike] at hrun
      exact run_remaining_bind_iff.mpr ((hstep _).again halike hrun)

theorem look_const (h : IsLocal p P) : IsLocal (remaining >>= fun _ => p) P :=
  look (fun _ => rfl) fun _ => h

/-- A parser that goes on as a test of the tokens in front tells. -/
theorem look_ite {c : List Token → Prop} [∀ tokens, Decidable (c tokens)] {step other : List Token → Parser α}
    (hblind : ∀ {T T' l : List Token}, Alike T T' → (c (l ++ T) ↔ c (l ++ T')))
    (hstep : IsLocal (remaining >>= step) P) (hother : IsLocal (remaining >>= other) P) :
    IsLocal (remaining >>= fun tokens => if c tokens then step tokens else other tokens) P :=
  (IsLocalSince.look_ite hblind (.of_local hstep) (.of_local hother) : IsLocalSince [] _ P).isLocal

theorem test {c : List Token → Prop} [∀ tokens, Decidable (c tokens)] {other : Parser α}
    (hblind : ∀ {T T' l : List Token}, Alike T T' → (c (l ++ T) ↔ c (l ++ T'))) (hp : IsLocal p P)
    (hother : IsLocal other P) :
    IsLocal (remaining >>= fun tokens => if c tokens then p else other) P :=
  look_ite hblind (look_const hp) (look_const hother)

theorem verbatim (h : IsLocal p P) : IsLocal (verbatim p) fun c tree => tree.tokens = c ∧ ∃ value, P c value := by
  refine IsLocalSince.start (IsLocalSince.bind h fun value c hc => ?_)
  have hkept : IsLocalSince c (fun start => Parser.keptSince start >>= fun tree => Pure.pure (id tree)) fun c' tree =>
      tree.tokens = c ++ c' ∧ ∃ value, P (c ++ c') value :=
    .keptSince fun tree htree => by simpa [htree] using ⟨value, hc⟩
  simpa only [id, bind_pure, List.nil_append] using hkept

theorem congr {q : Parser α} (h : IsLocal q P) (heq : ∀ r, p r = q r) : IsLocal p P where
  reads hrun := h.reads (heq _ ▸ hrun)
  again halike hrun := (heq _).trans (h.again halike (heq _ ▸ hrun))

/-- A parser for which only the tokens matter that it reads. -/
theorem of_exact (h : ∀ {r r' : Reading} {value : α}, p r = .ok (value, r') →
    ∃ c, r.tokens = c ++ r'.tokens ∧ P c value ∧
    ∀ rest, p ⟨c ++ rest, r.leftover?⟩ = .ok (value, ⟨rest, r'.leftover?⟩)) : IsLocal p P where
  reads hrun := by
    obtain ⟨c, htokens, hc, -⟩ := h hrun
    exact ⟨c, htokens, hc⟩
  again {T T' l l' o o' value} _ hrun := by
    obtain ⟨c, htokens, -, hexact⟩ := h hrun
    obtain rfl : l = c ++ l' := List.append_cancel_right (htokens.trans (List.append_assoc c l' T).symm)
    rw [List.append_assoc]
    exact hexact _

end IsLocal

/-- A repeated step reads what its runs read in a row. -/
theorem IsLocal.collect {α : Type} {step : Parser (List α × Bool)} {S : List Token → List α × Bool → Prop}
    {P : List Token → List α → Prop} (hstep : IsLocal step S) (hne : ∀ {c found}, S c (found, true) → c ≠ [])
    (hlast : ∀ {c found}, S c (found, false) → P c found)
    (hmore : ∀ {c found c' rest}, S c (found, true) → P c' rest → P (c ++ c') (found ++ rest)) :
    IsLocal (collect step) P := by
  have hshorter : ∀ {r s found}, step r = .ok ((found, true), s) → s.tokens.length < r.tokens.length := by
    intro r s found hrun
    obtain ⟨c, htokens, hc⟩ := hstep.reads hrun
    have hpos := List.length_pos_iff.mpr (hne hc)
    rw [htokens, List.length_append]
    omega
  have hreads : ∀ {r r' : Reading} {found : List α}, Collects step r found r' →
      ∃ c, r.tokens = c ++ r'.tokens ∧ P c found := by
    intro r r' found h
    induction h with
    | last hrun =>
      obtain ⟨c, htokens, hc⟩ := hstep.reads hrun
      exact ⟨c, htokens, hlast hc⟩
    | more hrun _ _ ih =>
      obtain ⟨c, htokens, hc⟩ := hstep.reads hrun
      obtain ⟨c', htokens', hc'⟩ := ih
      exact ⟨c ++ c', by rw [htokens, htokens', List.append_assoc], hmore hc hc'⟩
  refine ⟨fun hrun => hreads (collects_of_run hshorter hrun), fun {T T' l l' o o' found} halike hrun => ?_⟩
  have hruns := collects_of_run hshorter hrun
  generalize hr : (⟨l ++ T, o⟩ : Reading) = r at hruns
  generalize hr' : (⟨l' ++ T, o'⟩ : Reading) = r' at hruns
  refine Collects.run ?_
  clear hrun
  induction hruns generalizing l o with
  | last hrun =>
    subst hr hr'
    exact .last (hstep.again halike hrun)
  | @more r s r' found rest hrun _ hrest ih =>
    subst hr hr'
    obtain ⟨c, htokens, -⟩ := hreads hrest
    obtain ⟨tokens, o''⟩ := s
    obtain rfl : tokens = (c ++ l') ++ T := by rw [List.append_assoc]; exact htokens
    have hagain := hstep.again halike hrun
    exact .more hagain (hshorter hagain) (ih rfl rfl)

namespace IsLocal

theorem anyToken : IsLocal anyToken fun c trees => Takes c trees ∧ ∃ token, trees = [.leaf token] :=
  of_exact fun hrun => by
    obtain ⟨token, rest, htokens, rfl, rfl⟩ := run_anyToken_iff.mp hrun
    exact ⟨[token], htokens, ⟨⟨by simp, Keeps.of_eq rfl⟩, token, rfl⟩, fun rest => rfl⟩

theorem operator_eq {text : String} (hne : text.toList ≠ []) :
    IsLocal (operator text) fun c trees => trees = Tree.operator text ∧ Takes c trees :=
  of_exact fun hrun => by
    obtain ⟨rest, hbehind, rfl, rfl⟩ := run_operator_iff.mp hrun
    obtain ⟨c, htokens, hlength, hkeeps, hexact⟩ := exists_of_behindOperator? hbehind
    have hpos : 0 < c.length := hlength ▸ List.length_pos_iff.mpr hne
    exact ⟨c, htokens, ⟨rfl, List.length_pos_iff.mp hpos, hkeeps⟩, fun behind =>
      run_operator_iff.mpr ⟨behind, hexact behind, rfl, rfl⟩⟩

theorem operator {text : String} (hne : text.toList ≠ []) : IsLocal (Parser.operator text) Takes :=
  (operator_eq hne).mono fun _ _ h => h.2

theorem optionalOperator {text : String} (hne : text.toList ≠ []) :
    IsLocal (optionalOperator text) fun c trees => Keeps c trees ∧ (trees = [] ∨ trees = Tree.operator text) :=
  test (fun h => by rw [h.atOperator]) ((operator_eq hne).mono fun _ _ h => ⟨h.2.2, Or.inr h.1⟩)
    (pure ⟨Keeps.nil, Or.inl rfl⟩)

/-- A token is read that satisfies a test of it alone. -/
theorem one_token {test : List Token → Bool} {text : String}
    (htest : ∀ {T T' l}, Alike T T' → test (l ++ T) = test (l ++ T')) :
    IsLocal (do if test (← remaining) then Parser.anyToken else Parser.misplaced text) Takes :=
  IsLocal.test (fun h => by rw [htest h]) (anyToken.mono fun _ _ h => h.1) (misplaced text)

theorem optional_token {test : List Token → Bool} (htest : ∀ {T T' l}, Alike T T' → test (l ++ T) = test (l ++ T')) :
    IsLocal (do if test (← remaining) then Parser.anyToken else return []) Keeps :=
  IsLocal.test (fun h => by rw [htest h]) (anyToken.mono fun _ _ h => h.1.2) (pure Keeps.nil)

theorem word_eq (text : String) : IsLocal (word text) fun c trees => c = [.word text] ∧ trees = [.leaf (.word text)] :=
  of_exact fun {r r' trees} hrun => by
    obtain ⟨tokens, o⟩ := r
    rw [Parser.word, run_remaining_bind_iff] at hrun
    split at hrun
    · next hat =>
      obtain ⟨behind, rfl⟩ := exists_of_atWord hat
      obtain ⟨token, rest, htokens, rfl, rfl⟩ := run_anyToken_iff.mp hrun
      obtain ⟨rfl, rfl⟩ := List.cons.inj htokens
      refine ⟨[.word text], rfl, ⟨rfl, rfl⟩, fun rest => run_remaining_bind_iff.mpr ?_⟩
      simp only [List.cons_append, List.nil_append, atWord, beq_self_eq_true, if_true]
      rfl
    · exact absurd hrun run_misplaced_ne

theorem word (text : String) : IsLocal (word text) Takes :=
  (word_eq text).mono fun c trees ⟨hc, htrees⟩ => by
    subst hc htrees
    exact ⟨by simp, Keeps.of_eq rfl⟩

/-- A word is read that a test has found. -/
theorem found_word {β : Type} {R : List Token → β → Prop} {text : String} {step : Trees → Parser β} {other : Parser β}
    (hstep : IsLocal (step [.leaf (.word text)]) fun c => R (.word text :: c)) (hother : IsLocal other R) :
    IsLocal (do if !atWord text (← remaining) then other else Parser.anyToken >>= step) R := by
  refine congr (q := do if !atWord text (← remaining) then other else Parser.word text >>= step) ?_ fun r => ?_
  · refine test (fun h => by rw [h.atWord]) hother ((word_eq text).bind fun head c ⟨hc, hhead⟩ => ?_)
    subst hc hhead
    exact hstep
  · rw [run_bind (run_remaining r), run_bind (run_remaining r)]
    cases hat : atWord text r.tokens with
    | false => rfl
    | true =>
      have hword : Parser.word text r = Parser.anyToken r := by
        rw [Parser.word, run_bind (run_remaining r), hat]
        rfl
      simp only [Bool.not_true, Bool.false_eq_true, if_false, Bind.bind, StateT.bind, hword]

theorem optionalWord (text : String) : IsLocal (optionalWord text) Keeps :=
  optional_token fun h => h.atWord

theorem lifetime : IsLocal lifetime Takes :=
  one_token fun h => h.atLifetime

theorem optionalLifetime : IsLocal optionalLifetime Keeps :=
  optional_token fun h => h.atLifetime

theorem anyGroup : IsLocal anyGroup Takes :=
  one_token fun h => h.atAnyGroup

theorem name : IsLocal name fun c name => Takes c [.word name.text] :=
  of_exact fun {r r' name} hrun => by
    have hread := run_remaining_bind_iff.mp hrun
    obtain ⟨tokens, o⟩ := r
    cases tokens with
    | nil => cases hread
    | cons token tokens =>
      cases token with
      | word text =>
        dsimp only at hread
        cases hname : Name.ofWord? text with
        | none =>
          rw [hname] at hread
          cases hread
        | some name' =>
          rw [hname] at hread
          obtain ⟨rfl, rfl⟩ : name' = name ∧ (⟨tokens, o⟩ : Reading) = r' := Prod.mk.inj (Except.ok.inj hread)
          refine ⟨[.word text], rfl, ⟨by simp, Keeps.of_eq ?_⟩, fun rest => run_remaining_bind_iff.mpr ?_⟩
          · rw [← Name.eq_text_of_ofWord? hname]
            rfl
          dsimp only [List.cons_append, List.nil_append]
          rw [hname]
          rfl
      | _ => cases hread

theorem nameLeaf : IsLocal nameLeaf fun c trees => Takes c trees ∧ ∃ token, trees = [.leaf token] :=
  name.bind fun name c hname => pure ⟨by simpa using hname, _, rfl⟩

theorem literal : IsLocal literal Takes := by
  refine look_ite (fun h => by rw [h.atLiteral]) (look_const (misplaced _)) ?_
  refine test (fun h => by rw [h.atOperator]) ?_ (anyToken.mono fun _ _ h => h.1)
  refine (operator (by decide)).bind fun sign c hsign => anyToken.bind fun number c' ⟨hnumber, _⟩ => pure ?_
  simpa using hsign.append hnumber.2

theorem within {α : Type} (delimiter : Delimiter) (inside : Parser α) :
    IsLocal (within delimiter inside) fun c _ => ∃ inner, c = [.group delimiter inner] :=
  of_exact fun hrun => by
    obtain ⟨inner, s, htokens, hinside, hleftover⟩ := run_within_iff.mp hrun
    exact ⟨[.group delimiter inner], htokens, ⟨inner, rfl⟩, fun rest =>
      run_within_iff.mpr ⟨inner, s, rfl, hinside, hleftover⟩⟩

theorem group (delimiter : Delimiter) (inside : Parser Trees) : IsLocal (group delimiter inside) Takes :=
  (within delimiter inside).bind fun trees c hc => pure (by
    obtain ⟨inner, rfl⟩ := hc
    exact ⟨by simp, Nat.le_refl _, fun _ => Nat.le_refl _⟩)

section Collected

variable {α : Type} {step : Parser (List α × Bool)} {write : List α → Trees}

/-- Repeated steps of which `write` tells what is written. -/
theorem collected (hwrite : ∀ a b, write (a ++ b) = write a ++ write b)
    (hstep : IsLocal step fun c x => Keeps c (write x.1) ∧ (x.2 = true → c ≠ [])) :
    IsLocal (Parser.collect step) fun c found => Keeps c (write found) :=
  IsLocal.collect hstep (fun h => h.2 rfl) (fun h => h.1) fun h h' => by
    rw [hwrite]
    exact h.1.append h'

theorem collected_trees {step : Parser (Trees × Bool)}
    (hstep : IsLocal step fun c x => Keeps c x.1 ∧ (x.2 = true → c ≠ [])) : IsLocal (Parser.collect step) Keeps :=
  collected (fun _ _ => rfl) hstep

theorem collected_takes (hwrite : ∀ a b, write (a ++ b) = write a ++ write b)
    (hstep : IsLocal step fun c x => Takes c (write x.1)) :
    IsLocal (Parser.collect step) fun c found => Takes c (write found) :=
  IsLocal.collect hstep (fun h => h.1) (fun h => h) fun h h' => by
    rw [hwrite]
    exact h.append h'.2

theorem collectWhile {goesOn : List Token → Bool} {p : Parser Trees}
    (hblind : ∀ {T T' l}, Alike T T' → goesOn (l ++ T) = goesOn (l ++ T')) (hp : IsLocal p Takes) :
    IsLocal (collectWhile goesOn p) Keeps := by
  refine collected_trees (test (fun h => by rw [hblind h]) ?_ (pure ⟨Keeps.nil, nofun⟩))
  exact hp.bind fun trees c hc => pure ⟨by simpa using hc.2, fun _ => by simpa using hc.1⟩

end Collected

end IsLocal

end CommandBinding.Source
