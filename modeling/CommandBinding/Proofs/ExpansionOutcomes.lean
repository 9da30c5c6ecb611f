import CommandBinding.Proofs.CheckedExpansion
import CommandBinding.Proofs.FunctionHeads
import CommandBinding.Proofs.PeerFrames

/-!
The three ways in which an expansion ends. An item that is no function is left as it is behind one error. A function is
written back either behind all errors of the first step that fails, or in front of all of its peers. Generated errors begin
with a colon and a function does not, so the code shows in which of these ways it came about.
-/
namespace CommandBinding

open Source

namespace Source.FunctionItem

variable {f : FunctionItem} {directive : Directive} {settings : Settings}

/-- A function that is not bound has findings, so no other message has to stand for the failure. -/
theorem findings_ne_nil {found : List Finding} (h : f.bind directive settings = .error found) : found ≠ [] := by
  cases hbind : f.declare.1.bind directive settings with
  | ok b =>
    rw [bind_of_ok hbind] at h
    obtain ⟨hne, rfl⟩ := unlessFound_eq_error_iff.mp h
    exact hne
  | error more =>
    rw [bind_of_error hbind] at h
    obtain ⟨hne, hmore⟩ := WorkFunction.bind_eq_error_iff.mp hbind
    have hmore : more ≠ [] := hmore ▸ hne
    obtain rfl := Except.error.inj h
    exact fun hnil => hmore (List.append_eq_nil_iff.mp hnil).2

end Source.FunctionItem

namespace Expansion

variable {f g : FunctionItem} {kind : DirectiveKind} {arguments item : List Token} {messages : List String}

/-- The messages about the first step of an expansion that fails. -/
inductive Fails (f : FunctionItem) (kind : DirectiveKind) (arguments : List Token) : List String → Prop
  | arguments {e : ParseError} : directiveOfArguments kind arguments = .error e → Fails f kind arguments [e.message]
  | binding {directive : Directive} {found : List Finding} : directiveOfArguments kind arguments = .ok directive →
      f.bind directive {} = .error found → Fails f kind arguments (found.map (·.message))
  | generation {directive : Directive} {b : Binding} {e : PeerError} : directiveOfArguments kind arguments = .ok directive →
      f.bind directive {} = .ok b → Peer.peersOf f.withoutOptions b directive {} = .error e →
      Fails f kind arguments [e.message]

theorem Fails.messages_ne_nil (h : Fails f kind arguments messages) : messages ≠ [] := by
  cases h with
  | arguments _ => simp
  | binding _ hbind => simpa using FunctionItem.findings_ne_nil hbind
  | generation _ _ _ => simp

theorem ofFunction_eq_failed_iff :
    ofFunction kind arguments f = .failed messages g ↔ f.withoutOptions = g ∧ Fails f kind arguments messages := by
  constructor
  · intro h
    unfold ofFunction at h
    split at h
    · next e hreads =>
      obtain ⟨rfl, rfl⟩ := failed.inj h
      exact ⟨rfl, .arguments hreads⟩
    · next directive hreads =>
      split at h
      · next found hbinds =>
        obtain ⟨rfl, rfl⟩ := failed.inj h
        exact ⟨rfl, .binding hreads hbinds⟩
      · next b hbinds =>
        split at h
        · next e hgenerates =>
          obtain ⟨rfl, rfl⟩ := failed.inj h
          exact ⟨rfl, .generation hreads hbinds hgenerates⟩
        · cases h
  · rintro ⟨rfl, h⟩
    cases h with
    | arguments hreads => simp only [ofFunction, hreads]
    | binding hreads hbinds => simp only [ofFunction, hreads, hbinds]
    | generation hreads hbinds hgenerates => simp only [ofFunction, hreads, hbinds, hgenerates]

/-- A function is expanded, or a step fails. -/
theorem ofFunction_failed_or_expanded (f : FunctionItem) (kind : DirectiveKind) (arguments : List Token) :
    (∃ messages, ofFunction kind arguments f = .failed messages f.withoutOptions ∧ Fails f kind arguments messages) ∨
      ∃ directive b peers, ofFunction kind arguments f = .expanded f.withoutOptions peers ∧
        Expands f kind arguments directive b peers := by
  cases h : ofFunction kind arguments f with
  | notFunction other =>
    unfold ofFunction at h
    split at h
    · cases h
    · split at h
      · cases h
      · split at h <;> cases h
  | failed messages function =>
    obtain ⟨rfl, hfails⟩ := ofFunction_eq_failed_iff.mp h
    exact .inl ⟨messages, rfl, hfails⟩
  | expanded function peers =>
    obtain ⟨rfl, directive, b, hexpands⟩ := ofFunction_eq_expanded_iff.mp h
    exact .inr ⟨directive, b, peers, rfl, hexpands⟩

theorem Expands.names_perm {directive : Directive} {b : Binding} {peers : List Peer}
    (h : Expands f kind arguments directive b peers) : (peers.map (·.role.functionName)).Perm kind.peerNames := by
  have hkind : b.kind = kind := by
    obtain ⟨-, hbind⟩ := FunctionItem.bind_eq_ok_iff.mp h.binds
    rw [WorkFunction.kind_of_bind hbind, kind_of_directiveOfArguments h.reads]
  exact hkind ▸ (Peer.peersOf_eq_ok h.generates).2

inductive Outcome where
  | rejected
  | failed
  | expanded
deriving DecidableEq, Repr

namespace Outcome

end Outcome

end Expansion

end CommandBinding
