import CommandBinding.Source.DirectiveArguments

/-!
What keyed arguments cannot change. A property of the value that every entry keeps holds of what all entries make, so a
directive that is read from its arguments is of the kind that was asked for.
-/
namespace CommandBinding.Source

namespace Parser

variable {α β : Type} {P : α → Prop} {Q : β → Prop} {p : Parser α}

/-- Whatever the parser gives has the property. -/
def Yields (p : Parser α) (P : α → Prop) : Prop :=
  ∀ r value r', p r = .ok (value, r') → P value

theorem Yields.any (p : Parser α) : Yields p fun _ => True :=
  fun _ _ _ _ => trivial

theorem Yields.pure {value : α} (h : P value) : Yields (Pure.pure value) P := by
  intro r value' r' heq
  have hpair : (value, r) = (value', r') := Except.ok.inj heq
  exact (Prod.mk.inj hpair).1 ▸ h

theorem Yields.bind {step : α → Parser β} (hp : Yields p P) (hstep : ∀ a, P a → Yields (step a) Q) :
    Yields (p >>= step) Q := by
  intro r value r' heq
  simp only [Bind.bind, StateT.bind, Except.bind] at heq
  cases hr : p r with
  | error e => simp [hr] at heq
  | ok result =>
    rw [hr] at heq
    exact hstep result.1 (hp r result.1 result.2 hr) _ _ _ heq

theorem Yields.behind {step : α → Parser β} (hstep : ∀ a, Yields (step a) Q) : Yields (p >>= step) Q :=
  (Yields.any p).bind fun a _ => hstep a

theorem Yields.throw (e : ParseError) : Yields (throw e : Parser α) P := by
  intro r value r' heq
  cases heq

theorem Yields.ite_of {c : Prop} [Decidable c] {other : Parser α} (hp : c → Yields p P) (hother : ¬c → Yields other P) :
    Yields (if c then p else other) P := by
  split
  · next h => exact hp h
  · next h => exact hother h

theorem Yields.ite {c : Prop} [Decidable c] {other : Parser α} (hp : Yields p P) (hother : Yields other P) :
    Yields (if c then p else other) P :=
  Yields.ite_of (fun _ => hp) fun _ => hother

theorem Yields.misplaced (text : String) : Yields (misplaced text : Parser α) P :=
  Yields.behind fun _ => Yields.throw _

/-- A step that keeps a property of what has been made so far may run as often as it asks to. -/
theorem Yields.iterate {step : α → Parser (α × Bool)} (hstep : ∀ value, P value → Yields (step value) fun next => P next.1)
    {value : α} (h : P value) : Yields (iterate step value) P := by
  have hfrom : ∀ (bound : List Token) (value : α), P value → Yields (iterateFrom step bound value) P := by
    intro bound
    induction bound with
    | nil => exact fun value hvalue => (hstep value hvalue).bind fun next hnext => Yields.pure hnext
    | cons _ bound ih =>
      intro value hvalue
      refine (hstep value hvalue).bind fun next hnext => ?_
      exact Yields.ite (ih next.1 hnext) (Yields.pure hnext)
  exact Yields.behind fun tokens => hfrom tokens value h

theorem Yields.of_parse {start : Recur → Parser α} {tokens : List Token} {value : α}
    (h : ∀ rec, Yields (start rec) P) (hparse : parse start tokens = .ok value) : P value := by
  simp only [parse, parseAll, Bind.bind, Except.bind] at hparse
  split at hparse
  · simp at hparse
  · next result hresult =>
    have hresult := h _ _ result.1 result.2 hresult
    split at hparse
    · simp at hparse
    · split at hparse
      · simp only [Pure.pure, Except.pure, Except.ok.injEq] at hparse
        exact hparse ▸ hresult
      · simp at hparse

end Parser

open CommandBinding.Source.Parser

variable {α : Type} {P : α → Prop}

/-- A property of the value that every entry keeps is kept by all of them. -/
theorem yields_keyedArguments {entry : List Token → α → Parser α} {value : α}
    (hentry : ∀ key value, P value → Yields (entry key value) P) (h : P value) : Yields (keyedArguments entry value) P := by
  refine Yields.behind fun tokens => Yields.ite (Yields.pure h) ?_
  refine Yields.iterate (fun value hvalue => ?_) h
  refine Yields.behind fun key => (hentry key value hvalue).bind fun next hnext => ?_
  refine Yields.behind fun rest => Yields.ite (Yields.pure hnext) ?_
  exact Yields.behind fun _ => Yields.behind fun _ => Yields.pure hnext

theorem kind_of_directiveOfArguments {kind : DirectiveKind} {arguments : List Token} {directive : Directive}
    (h : directiveOfArguments kind arguments = .ok directive) : directive.kind = kind := by
  refine Yields.of_parse (P := fun d => d.kind = kind) (fun rec => ?_) h
  refine yields_keyedArguments (fun key d hd => ?_) rfl
  refine Yields.ite ?_ (Yields.ite (Yields.pure hd) (Yields.ite ?_ (Yields.throw _)))
  · exact Yields.behind fun _ => Yields.behind fun _ => Yields.pure hd
  · exact Yields.behind fun _ => Yields.behind fun _ => Yields.pure hd

/-- Without arguments a directive has its kind only. -/
theorem directiveOfArguments_nil (kind : DirectiveKind) : directiveOfArguments kind [] = .ok { kind } :=
  rfl

end CommandBinding.Source
