import CommandBinding.Proofs.ItemRuns

/-!
Runs of a step that is repeated. Where each run that asks to go on has read something, the bound on their number is
never reached, so a repetition is the list of its runs.
-/
namespace CommandBinding.Source

open CommandBinding.Source.Parser

/-- The runs of a step that asks to go on but for the last time, and what they find. A run behind which another one
follows reads something. -/
inductive Collects {α : Type} (step : Parser (List α × Bool)) : Reading → List α → Reading → Prop
  | last {r r' : Reading} {found : List α} : step r = .ok ((found, false), r') → Collects step r found r'
  | more {r s r' : Reading} {found rest : List α} : step r = .ok ((found, true), s) →
    s.tokens.length < r.tokens.length → Collects step s rest r' → Collects step r (found ++ rest) r'

section Collects

variable {α : Type} {step : Parser (List α × Bool)} {r r' : Reading} {found : List α}

theorem Collects.run (h : Collects step r found r') : collect step r = .ok (found, r') := by
  have hfrom : ∀ bound : List Token, r.tokens.length ≤ bound.length → collectFrom step bound r = .ok (found, r') := by
    induction h with
    | last hlast => exact fun bound _ => collectFrom_of_last hlast
    | more hmore hshorter _ ih =>
      intro bound hbound
      cases bound with
      | nil =>
        rw [List.length_nil] at hbound
        omega
      | cons token bound => exact collectFrom_of_more hmore (ih bound (by rw [List.length_cons] at hbound; omega))
  exact hfrom r.tokens (Nat.le_refl _)

/-- If a step that asks to go on has read something, it is never stopped before it asks for that. This is only needed of
the steps that have found what is given. -/
theorem collects_of_run_where {Q : α → Prop} (hshorter : ∀ {r s found}, step r = .ok ((found, true), s) →
    (∀ x ∈ found, Q x) → s.tokens.length < r.tokens.length) (h : collect step r = .ok (found, r'))
    (hall : ∀ x ∈ found, Q x) :
    Collects step r found r' := by
  have hfrom : ∀ (bound : List Token) {r found}, r.tokens.length ≤ bound.length →
      collectFrom step bound r = .ok (found, r') → (∀ x ∈ found, Q x) → Collects step r found r' := by
    intro bound
    induction bound with
    | nil =>
      intro r found hbound hrun hall
      obtain ⟨⟨found', more⟩, s, hstep, hrest⟩ := run_bind_iff.mp hrun
      obtain ⟨rfl, rfl⟩ := run_pure_iff.mp hrest
      cases more with
      | false => exact .last hstep
      | true => exact absurd (hshorter hstep hall) (by rw [List.length_nil] at hbound; omega)
    | cons token bound ih =>
      intro r found hbound hrun hall
      obtain ⟨⟨found', more⟩, s, hstep, hrest⟩ := run_bind_iff.mp hrun
      cases more with
      | false =>
        obtain ⟨rfl, rfl⟩ := run_pure_iff.mp hrest
        exact .last hstep
      | true =>
        obtain ⟨rest, s', hmore, hrest⟩ := run_bind_iff.mp hrest
        obtain ⟨rfl, rfl⟩ := run_pure_iff.mp hrest
        obtain ⟨hfirst, hrest⟩ := List.forall_mem_append.mp hall
        have hlength := hshorter hstep hfirst
        exact .more hstep hlength (ih (by rw [List.length_cons] at hbound; omega) hmore hrest)
  exact hfrom r.tokens (Nat.le_refl _) (run_remaining_bind_iff.mp h) hall

theorem collects_of_run (hshorter : ∀ {r s found}, step r = .ok ((found, true), s) → s.tokens.length < r.tokens.length)
    (h : collect step r = .ok (found, r')) : Collects step r found r' :=
  collects_of_run_where (Q := fun _ => True) (fun hrun _ => hshorter hrun) h fun _ _ => trivial

end Collects

section CollectsWhile

variable {α : Type} {goesOn : List Token → Bool} {p : Parser (List α)} {r s r' : Reading} {found rest : List α}

/-- What is repeated as long as the tokens in front satisfy a test. -/
inductive CollectsWhile {α : Type} (goesOn : List Token → Bool) (p : Parser (List α)) :
    Reading → List α → Reading → Prop
  | stop {r : Reading} : goesOn r.tokens = false → CollectsWhile goesOn p r [] r
  | more {r s r' : Reading} {found rest : List α} : goesOn r.tokens = true → p r = .ok (found, s) →
    s.tokens.length < r.tokens.length → CollectsWhile goesOn p s rest r' → CollectsWhile goesOn p r (found ++ rest) r'

theorem CollectsWhile.run (h : CollectsWhile goesOn p r found r') : collectWhile goesOn p r = .ok (found, r') := by
  refine Collects.run ?_
  induction h with
  | stop hstop =>
    refine .last ?_
    rw [run_bind (run_remaining _), hstop]
    rfl
  | more hmore hrun hshorter _ ih =>
    refine .more ?_ hshorter ih
    rw [run_bind (run_remaining _), if_pos hmore, run_bind hrun]
    rfl

theorem collectsWhile_of_run (hshorter : ∀ {r s found}, p r = .ok (found, s) → s.tokens.length < r.tokens.length)
    (h : collectWhile goesOn p r = .ok (found, r')) : CollectsWhile goesOn p r found r' := by
  have hstep : ∀ {r s : Reading} {x : List α × Bool},
      (do if goesOn (← remaining) then return (← p, true) else return ([], false)) r = .ok (x, s) →
      (goesOn r.tokens = true ∧ x.2 = true ∧ p r = .ok (x.1, s)) ∨
        (goesOn r.tokens = false ∧ x = ([], false) ∧ r = s) := by
    intro r s x hrun
    have hrun := run_remaining_bind_iff.mp hrun
    split at hrun
    · next hmore =>
      obtain ⟨found, s', hfound, hvalue⟩ := run_bind_iff.mp hrun
      obtain ⟨rfl, rfl⟩ := run_pure_iff.mp hvalue
      exact Or.inl ⟨hmore, rfl, hfound⟩
    · next hstop =>
      obtain ⟨rfl, rfl⟩ := run_pure_iff.mp hrun
      exact Or.inr ⟨by simpa using hstop, rfl, rfl⟩
  have hruns := collects_of_run (fun hrun => ?_) h
  · clear h
    induction hruns with
    | last hrun =>
      obtain ⟨-, hmore, -⟩ | ⟨hstop, heq, rfl⟩ := hstep hrun
      · cases hmore
      · obtain rfl := (Prod.mk.inj heq).1
        exact .stop hstop
    | more hrun hless _ ih =>
      obtain ⟨hmore, -, hrun⟩ | ⟨-, heq, -⟩ := hstep hrun
      · exact .more hmore hrun hless ih
      · cases heq
  · obtain ⟨-, -, hrun⟩ | ⟨-, heq, -⟩ := hstep hrun
    · exact hshorter hrun
    · cases heq

end CollectsWhile

end CommandBinding.Source
