import CommandBinding.Proofs.CallArguments
import CommandBinding.Proofs.PeerFrames

/-!
Names that a peer needs behind its locals. A local is read from `__values`, and the call behind all locals names the work
function. Nothing keeps a parameter from having one of these names; its local then stands where the name was meant for what
the peer has read, or for the function.
-/
namespace CommandBinding

open Source

/-- The key that the local of a parameter reads; the payload of a meta flag is not read. -/
def Parameter.key? (p : Parameter) : Option String :=
  if p.category {} = .metaFlag then none else some p.name

/-- The expression for a value that is read begins with the name of the values. -/
theorem ValueSource.exists_tokens_eq_values {source : ValueSource} (h : source.key? ≠ none) :
    ∃ method, source.tokens = .word "__values" :: method := by
  have hvalues : code "__values ." = [.word "__values", .mark '.' false] := by decide +kernel
  have hreading : ∀ method arguments, ∃ rest, reading method arguments = .word "__values" :: rest := by
    intro method arguments
    simp only [reading, hvalues, List.cons_append, List.cons.injEq, true_and, exists_eq']
  cases source with
  | payload expression => exact absurd rfl h
  | _ => exact hreading _ _

namespace Peer

variable {f : WorkFunction} {g : FunctionItem} {directive : Directive} {b : Binding} {peers : List Peer} {peer : Peer}
  {reading : ArgumentReading} {call : WorkCall}

/-- Whether each local that is read stands behind locals none of which rebinds the values. -/
def KeepsValues (reading : ArgumentReading) : Prop :=
  reading.locals.Pairwise fun earlier later => later.source.key? ≠ none → earlier.statement.binds "__values" = false

/-- Whether no local rebinds the work function, unless it is called through the type that it belongs to. -/
def KeepsWorkFunction (peer : Peer) (reading : ArgumentReading) (call : WorkCall) : Prop :=
  peer.frame.isAssociated = false → ∀ l ∈ reading.locals, l.statement.binds call.function.plain = false

theorem key?_of_sourceOf {p : Parameter} {source : ValueSource} (h : sourceOf (p.bound {}) = .ok source) :
    source.key? = p.key? := by
  by_cases hmeta : p.category {} = .metaFlag
  · have hcategory : (p.bound {}).category = .metaFlag := hmeta
    simp only [sourceOf, hcategory, bind_eq_ok_iff, pure, Except.pure, Except.ok.injEq] at h
    obtain ⟨tokens, -, rfl⟩ := h
    rw [Parameter.key?, if_pos hmeta]
    rfl
  · rw [Parameter.key?, if_neg hmeta]
    exact key_of_sourceOf h hmeta

section Served

variable (hbind : f.bind directive {} = .ok b) (h : Serves g b peers peer reading call)
  (hnames : ∀ p ∈ f.parameters, ∃ name : Name, p.name = name.plain)

include hbind h hnames

/-- The locals have the names of the parameters on the command line, and read what these are read under. -/
theorem keys_of_bind : reading.locals.map (fun l => (l.name.plain, l.source.key?)) =
    (f.boundParameters directive.kind).map (fun p => (p.name, p.key?)) := by
  have hlocals : List.Forall₂ (fun p l => localOf (p.bound {}) = .ok l) (f.boundParameters directive.kind)
      reading.locals := by
    have hserved := h.locals
    rwa [WorkFunction.parameters_of_bind hbind, List.forall₂_map_left_iff] at hserved
  refine map_eq_of_forall₂ hlocals fun p hp l hl => ?_
  obtain ⟨hname, hsource⟩ := localOf_eq_ok_iff.mp hl
  obtain ⟨name, hplain⟩ := hnames p (List.mem_filter.mp hp).1
  have hname : l.name.plain = p.name := by
    have hagain : nameOf name.plain = .ok l.name := hplain ▸ hname
    exact (plain_of_nameOf hagain).trans hplain.symm
  rw [hname, key?_of_sourceOf hsource]

theorem keepsValues_iff_of_bind : KeepsValues reading ↔ (f.boundParameters directive.kind).Pairwise fun earlier later =>
    later.category {} ≠ .metaFlag → earlier.name ≠ "__values" := by
  have hpairs : KeepsValues reading ↔ (reading.locals.map fun l => (l.name.plain, l.source.key?)).Pairwise
      fun earlier later => later.2 ≠ none → earlier.1 ≠ "__values" := by
    simp only [KeepsValues, List.pairwise_map, Local.binds_statement, beq_eq_false_iff_ne, ne_comm (a := "__values")]
  rw [hpairs, keys_of_bind hbind h hnames, List.pairwise_map]
  simp only [Parameter.key?, ne_eq, ite_eq_left_iff, reduceCtorEq, imp_false, Classical.not_not]

theorem keepsWorkFunction_iff_of_bind {name : Name} (hfunction : call.function = name) :
    KeepsWorkFunction peer reading call ↔
      (peer.frame.isAssociated = false → ∀ p ∈ f.boundParameters directive.kind, p.name ≠ name.plain) := by
  have hlocals : (∀ l ∈ reading.locals, l.statement.binds call.function.plain = false) ↔
      ∀ identifier ∈ reading.locals.map (·.name.plain), identifier ≠ name.plain := by
    simp only [List.forall_mem_map, Local.binds_statement, beq_eq_false_iff_ne, hfunction, ne_comm (b := name.plain)]
  rw [KeepsWorkFunction, hlocals, locals_of_bind hbind h hnames, List.forall_mem_map]

end Served

end Peer

namespace Expansion

variable {f : FunctionItem} {kind : DirectiveKind} {arguments : List Token}

/-- The locals of a peer leave it its values exactly if no parameter in front of one that is read is named like them, and
its work function exactly if no parameter is named like that, or it is called through its type. -/
theorem locals_keep_names_iff {item : List Token} {g : FunctionItem} {peers : List Peer}
    (hitem : parseFunction item = .ok f) (hexpanded : ofItem kind arguments item = .expanded g peers) :
    ∃ directive peer reading call, directiveOfArguments kind arguments = .ok directive ∧ peer ∈ peers ∧
      (∀ other ∈ peers, other.role.workCall? ≠ none → other = peer) ∧ Peer.IsCaller kind reading call peer.role ∧
      peer.Calls call ∧ call.function = f.signature.name ∧
      (∀ l ∈ reading.locals, l.source.key? ≠ none → ∃ method, l.source.tokens = .word "__values" :: method) ∧
      (Peer.KeepsValues reading ↔ (f.declare.1.boundParameters kind).Pairwise fun earlier later =>
        later.category {} ≠ .metaFlag → earlier.name ≠ "__values") ∧
      (peer.KeepsWorkFunction reading call ↔
        (directive.associated = false → ∀ p ∈ f.declare.1.boundParameters kind, p.name ≠ f.signature.name.plain)) := by
  obtain ⟨rfl, directive, b, h⟩ := (ofItem_eq_expanded_iff hitem).mp hexpanded
  obtain rfl : directive.kind = kind := kind_of_directiveOfArguments h.reads
  obtain ⟨hdeclare, hbind⟩ := FunctionItem.bind_eq_ok_iff.mp h.binds
  obtain ⟨peer, reading, call, hserves⟩ := Peer.exists_serves h.generates
  have hnames := fun p hp => FunctionItem.exists_name_of_mem (p := p) hdeclare hp
  have hrole : Peer.IsCaller directive.kind reading call peer.role := WorkFunction.kind_of_bind hbind ▸ hserves.role
  have hassociated : peer.frame.isAssociated = directive.associated :=
    Peer.isAssociated_of_frameOf ((Peer.peersOf_eq_ok h.generates).1 peer hserves.mem)
  have hfunction : call.function = f.signature.name := hserves.function
  refine ⟨directive, peer, reading, call, h.reads, hserves.mem, hserves.only, hrole,
    Peer.calls_of_workCall hrole.reading?.2, hfunction, fun _ _ hread => ValueSource.exists_tokens_eq_values hread,
    Peer.keepsValues_iff_of_bind hbind hserves hnames, ?_⟩
  rw [Peer.keepsWorkFunction_iff_of_bind hbind hserves hnames hfunction, hassociated]

theorem isName_values : isName "__values" = true := by
  decide +kernel

/-- A function with parameters that are named like the values of its peer and like itself. -/
def capturing : FunctionItem :=
  plainFunction [] [byteInput [] ⟨"__values", isName_values⟩, byteInput [] (plainFunction [] []).signature.name]

/-- The locals of its peer leave it neither. -/
theorem locals_capture_names : ∃ g peers peer reading call,
    ofItem .callFunction [] capturing.tokens = .expanded g peers ∧ peer ∈ peers ∧
      Peer.IsCaller .callFunction reading call peer.role ∧ peer.Calls call ∧ call.function.plain = "f" ∧
      ¬Peer.KeepsValues reading ∧ ¬peer.KeepsWorkFunction reading call := by
  have hitem : parseFunction capturing.tokens = .ok capturing := eq_ok_of_toOption (by decide +kernel)
  have hpeers : (ofItem .callFunction [] capturing.tokens).peers ≠ [] := by decide +kernel
  obtain ⟨g, hexpanded⟩ := eq_expanded_of_peers rfl hpeers
  obtain ⟨directive, peer, reading, call, hreads, hmem, -, hrole, hcalls, hfunction, -, hvalues, hself⟩ :=
    locals_keep_names_iff hitem hexpanded
  have hparameters : capturing.declare.1.boundParameters .callFunction =
      [⟨"__values", "__values", "u8", none⟩, ⟨"f", "f", "u8", none⟩] := by decide +kernel
  have hname : capturing.signature.name.plain = "f" := by decide +kernel
  have hdirective : directive = { kind := .callFunction } :=
    Except.ok.inj (hreads.symm.trans (directiveOfArguments_nil _))
  rw [hparameters] at hvalues hself
  refine ⟨g, _, peer, reading, call, hexpanded, hmem, hrole, hcalls, hfunction ▸ hname, ?_, ?_⟩
  · rw [hvalues]
    intro hall
    have hbyte : (⟨"f", "f", "u8", none⟩ : Parameter).category {} ≠ .metaFlag := by decide +kernel
    exact List.rel_of_pairwise_cons hall (List.mem_cons_self ..) hbyte rfl
  · rw [hself, hname, hdirective]
    intro hall
    exact hall rfl ⟨"f", "f", "u8", none⟩ (by simp) rfl

end Expansion

end CommandBinding
