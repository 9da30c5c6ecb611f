import CommandBinding.Expansion
import CommandBinding.Proofs.BindingConsistency
import CommandBinding.Proofs.DeclaredInputs
import CommandBinding.Proofs.PeerReadings
import CommandBinding.Proofs.PlainNames
import CommandBinding.Proofs.ReadDirectives

/-!
Functions that are expanded. A directive is expanded if its arguments can be read, the function is bound, and peers are
generated from the binding. Names are no obstacle: those of the parameters come from the source, and each of them can be
written again.
-/
namespace CommandBinding

open Source

variable {f : FunctionItem} {kind : DirectiveKind} {directive : Directive} {settings : Settings} {b : Binding}

namespace WorkFunction

theorem kind_of_bind {f : WorkFunction} (h : f.bind directive settings = .ok b) : b.kind = directive.kind := by
  obtain ⟨-, _, _, _, _, _, rfl⟩ := bind_eq_ok_iff.mp h
  rfl

theorem metaFlags_of_bind {f : WorkFunction} (h : f.bind directive settings = .ok b) :
    b.tables.metaFlags = b.parameters.filterMap RuntimeTables.metaFlagDefault? := by
  obtain ⟨-, _, _, _, _, _, rfl⟩ := bind_eq_ok_iff.mp h
  rfl

/-- The state of an action is the one that its declaration is resolved to. -/
theorem state_of_bind {f : WorkFunction} (h : f.bind directive settings = .ok b)
    (hkind : directive.kind = .commandAction) :
    ∃ t, StateThread.resolve f settings = .ok t ∧ b.state = some t.thread := by
  obtain ⟨-, _, function, state, -, hthreaded, rfl⟩ := bind_eq_ok_iff.mp h
  have hthreads : directive.kind.threadsState = true := by
    rw [hkind]
    rfl
  rw [threadedFor_of_threadsState hthreads] at hthreaded
  cases hresolve : StateThread.resolve f settings with
  | error found => simp [hresolve, Except.map] at hthreaded
  | ok t =>
    simp only [hresolve, Except.map, Except.ok.injEq, Prod.mk.injEq] at hthreaded
    exact ⟨t, rfl, hthreaded.2.symm⟩

end WorkFunction

namespace Source.FunctionItem

/-- The parameters of a declared function have names of the source. -/
theorem exists_name_of_mem {p : Parameter} (h : f.declare.2 = []) (hp : p ∈ f.declare.1.parameters) :
    ∃ name : Name, p.name = name.plain := by
  obtain ⟨names, -, hplain⟩ := Input.exists_names (inputs_declare h)
  have hmem : p.name ∈ names.map Name.plain := hplain ▸ List.mem_map_of_mem hp
  obtain ⟨name, -, hname⟩ := List.mem_map.mp hmem
  exact ⟨name, hname.symm⟩

theorem name_ne_of_mem {p : Parameter} (h : f.declare.2 = []) (hp : p ∈ f.declare.1.parameters) :
    p.name ≠ "_" ∧ p.name ≠ "" := by
  obtain ⟨name, hname⟩ := exists_name_of_mem h hp
  rw [hname]
  exact plain_ne name

theorem nameOf_plain (name : Name) : ∃ again, Peer.nameOf name.plain = .ok again ∧ again.plain = name.plain := by
  obtain ⟨again, hagain, hplain⟩ := exists_ofText?_plain name
  exact ⟨again, by simp only [Peer.nameOf, hagain], hplain⟩

theorem exists_nameOf_of_mem {p : Parameter} (h : f.declare.2 = []) (hp : p ∈ f.declare.1.parameters) :
    ∃ name, Peer.nameOf p.name = .ok name := by
  obtain ⟨name, hname⟩ := exists_name_of_mem h hp
  obtain ⟨again, hagain, -⟩ := nameOf_plain name
  exact ⟨again, hname ▸ hagain⟩

/-- Generation fails for the texts of a binding only. -/
theorem isNamed_of_bind (h : f.bind directive {} = .ok b) : Peer.IsNamed b {} := by
  obtain ⟨hdeclare, hbind⟩ := bind_eq_ok_iff.mp h
  refine ⟨?_, fun p hp => WorkFunction.default_of_bound_metaFlag hbind hp, WorkFunction.metaFlags_of_bind hbind, ?_, ?_⟩
  · intro p hp
    rw [WorkFunction.parameters_of_bind hbind] at hp
    obtain ⟨q, hq, rfl⟩ := List.mem_map.mp hp
    exact exists_nameOf_of_mem hdeclare (List.mem_filter.mp hq).1
  · intro hkind
    rw [WorkFunction.kind_of_bind hbind] at hkind
    obtain ⟨t, -, hstate⟩ := WorkFunction.state_of_bind hbind hkind
    exact ⟨t.thread, hstate⟩
  · exact exists_eq_ok_of_isSome (by decide +kernel)

end Source.FunctionItem

namespace Expansion

/-- What the expansion of a directive on a function goes through. -/
structure Expands (f : FunctionItem) (kind : DirectiveKind) (arguments : List Token) (directive : Directive) (b : Binding)
    (peers : List Peer) : Prop where
  reads : directiveOfArguments kind arguments = .ok directive
  binds : f.bind directive {} = .ok b
  generates : Peer.peersOf f.withoutOptions b directive {} = .ok peers

theorem ofFunction_eq_expanded_iff {arguments : List Token} {g : FunctionItem} {peers : List Peer} :
    ofFunction kind arguments f = .expanded g peers ↔
      f.withoutOptions = g ∧ ∃ directive b, Expands f kind arguments directive b peers := by
  constructor
  · intro h
    unfold ofFunction at h
    split at h
    · cases h
    · next directive hreads =>
      split at h
      · cases h
      · next b hbinds =>
        split at h
        · cases h
        · next found hgenerates =>
          obtain ⟨rfl, rfl⟩ := expanded.inj h
          exact ⟨rfl, directive, b, hreads, hbinds, hgenerates⟩
  · rintro ⟨rfl, directive, b, h⟩
    simp only [ofFunction, h.reads, h.binds, h.generates]

theorem ofItem_eq_expanded_iff {arguments item : List Token} {g : FunctionItem} {peers : List Peer}
    (hitem : parseFunction item = .ok f) : ofItem kind arguments item = .expanded g peers ↔
      f.withoutOptions = g ∧ ∃ directive b, Expands f kind arguments directive b peers := by
  simp only [ofItem, hitem, ofFunction_eq_expanded_iff]

/-- Only an expanded directive has peers. -/
theorem eq_expanded_of_peers {e : Expansion} {peers : List Peer} (h : e.peers = peers) (hne : peers ≠ []) :
    ∃ g, e = .expanded g peers := by
  cases e with
  | notFunction item => exact absurd h.symm hne
  | failed messages function => exact absurd h.symm hne
  | expanded function found => exact ⟨function, congrArg _ h⟩

def sizeName : Name :=
  ⟨"size", by decide +kernel⟩

def byteInput (attributes : List Attribute) (name : Name) : Input :=
  .typed ⟨attributes, [name.token], some name, [.word "u8"]⟩

def plainFunction (attributes : List Attribute) (inputs : List Input) : FunctionItem where
  attributes := attributes
  visibility := []
  defaultness := []
  signature := ⟨false, false, false, [], ⟨"f", by decide +kernel⟩, [], inputs, false, [], none, []⟩
  body := []

end Expansion

end CommandBinding
