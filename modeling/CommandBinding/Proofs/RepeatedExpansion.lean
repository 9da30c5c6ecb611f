import CommandBinding.Proofs.BareFunctions
import CommandBinding.Proofs.RereadFunctions
import CommandBinding.Report

/-!
Two directives on one function. The first one is expanded to a function without the options of its parameters, and this
is what the second one is expanded on. It finds each parameter labelled by its name and without a default, so it has the
peers that it has on the function as it was written exactly if nothing is lost by that.
-/
namespace CommandBinding

open Source

namespace Expansion

variable {f : FunctionItem} {kind : DirectiveKind} {arguments : List Token} {directive : Directive} {b : Binding}
  {peers : List Peer}

theorem declare_again {attributes : List Attribute} (h : Expands f kind arguments directive b peers) :
    { f.withoutOptions with attributes }.declare = (f.declare.1.bare, []) :=
  FunctionItem.declare_withoutOptions (FunctionItem.bind_eq_ok_iff.mp h.binds).1

/-- Where a directive has its peers again, they show no label and no default that is lost. -/
theorem asBare_of_expands_again {attributes : List Attribute} {directive' : Directive} {b' : Binding}
    (h : Expands f kind arguments directive b peers)
    (h' : Expands { f.withoutOptions with attributes } kind arguments directive' b' peers) :
    f.declare.1.AsBare kind := by
  obtain rfl : directive.kind = kind := kind_of_directiveOfArguments h.reads
  obtain rfl := Except.ok.inj (h.reads.symm.trans h'.reads)
  obtain ⟨hdeclare, hbind⟩ := FunctionItem.bind_eq_ok_iff.mp h.binds
  obtain ⟨-, hbind'⟩ := FunctionItem.bind_eq_ok_iff.mp h'.binds
  rw [declare_again h] at hbind'
  have hnames := fun p hp => FunctionItem.exists_nameOf_of_mem (p := p) hdeclare hp
  -- One reading serves both bindings, so that their labels and their locals are those of the reading.
  obtain ⟨peer, reading, call, hserves⟩ := Peer.exists_serves h.generates
  obtain ⟨peer', reading', call', hserves'⟩ := Peer.exists_serves h'.generates
  obtain rfl := Peer.reading_unique hserves hserves'
  refine (WorkFunction.asBare_iff hbind hbind' hnames).mpr ⟨hserves'.labels.symm.trans hserves.labels, ?_⟩
  exact (forall₂_eq_ok_iff.mp hserves'.locals).trans (forall₂_eq_ok_iff.mp hserves.locals).symm

/-- Where nothing is lost that the peers of a directive show, it has them again. -/
theorem exists_expands_again {attributes : List Attribute} (h : Expands f kind arguments directive b peers)
    (has : f.declare.1.AsBare kind) :
    ∃ b', Expands { f.withoutOptions with attributes } kind arguments directive b' peers := by
  obtain rfl : directive.kind = kind := kind_of_directiveOfArguments h.reads
  obtain ⟨hdeclare, hbind⟩ := FunctionItem.bind_eq_ok_iff.mp h.binds
  have hnames := fun p hp => FunctionItem.exists_nameOf_of_mem (p := p) hdeclare hp
  have hbindable := WorkFunction.bindable_bare (WorkFunction.bindable_of_bind hbind)
    (fun p hp => FunctionItem.name_ne_of_mem hdeclare hp) has
  obtain ⟨b', hbind'⟩ :=
    WorkFunction.bind_eq_ok_of_allFindings_eq_nil (WorkFunction.allFindings_eq_nil_iff.mpr hbindable)
  have hbinds : { f.withoutOptions with attributes }.bind directive {} = .ok b' := by
    rw [FunctionItem.bind_eq_ok_iff, declare_again h]
    exact ⟨rfl, hbind'⟩
  exact ⟨b', h.reads, hbinds, (WorkFunction.peersOf_bare hbind hbind' hnames has).trans h.generates⟩

theorem peers_again_eq_iff (h : Expands f kind arguments directive b peers) (attributes : List Attribute) :
    (ofFunction kind arguments { f.withoutOptions with attributes }).peers = peers ↔ f.declare.1.AsBare kind := by
  constructor
  · intro hpeers
    obtain ⟨peer, _, _, hserves⟩ := Peer.exists_serves h.generates
    obtain ⟨g, hexpanded⟩ := eq_expanded_of_peers hpeers (List.ne_nil_of_mem hserves.mem)
    obtain ⟨-, directive', b', hexpands'⟩ := ofFunction_eq_expanded_iff.mp hexpanded
    exact asBare_of_expands_again h hexpands'
  · intro has
    obtain ⟨b', hexpands'⟩ := exists_expands_again h has
    rw [ofFunction_eq_expanded_iff.mpr ⟨rfl, directive, b', hexpands'⟩]
    rfl

/-- A directive has the same peers behind another one exactly if no label and no default that they show is lost. The
first one has left the function `g`, of which the compiler may since have taken attributes away. The tokens of `g` are
read as `g` if those of `f` are read as `f`. That is not so of `fn f<T, 'a>()`, where `'a` is written first. -/
theorem peers_of_repeated_eq_iff {item arguments' : List Token} {g g' : FunctionItem} {kind' : DirectiveKind}
    {peers peers' : List Peer} (hitem : parseFunction item = .ok f)
    (hfirst : ofItem kind arguments item = .expanded g peers)
    (hsecond : ofItem kind' arguments' item = .expanded g' peers') :
    (∀ attributes, { g with attributes }.declare = (f.declare.1.bare, []) ∧
      ((ofFunction kind' arguments' { g with attributes }).peers = peers' ↔ f.declare.1.AsBare kind')) ∧
    (parseFunction f.tokens = .ok f → f.signature.variadic = [] → parseFunction g.tokens = .ok g ∧
      ((ofItem kind' arguments' g.tokens).peers = peers' ↔ f.declare.1.AsBare kind')) := by
  obtain ⟨rfl, -⟩ := (ofItem_eq_expanded_iff hitem).mp hfirst
  obtain ⟨-, directive, b, hexpands⟩ := (ofItem_eq_expanded_iff hitem).mp hsecond
  refine ⟨fun attributes => ⟨declare_again hexpands, peers_again_eq_iff hexpands attributes⟩, fun hown hvariadic => ?_⟩
  have hagain : parseFunction f.withoutOptions.tokens = .ok f.withoutOptions :=
    parseFunction_withoutOptions hown (FunctionItem.bind_eq_ok_iff.mp hexpands.binds).1 hvariadic
  refine ⟨hagain, ?_⟩
  rw [ofItem, hagain]
  exact peers_again_eq_iff hexpands f.withoutOptions.attributes

/-- A function under two directives. Its parameter has a label. -/
def stacked (label : String) : FunctionItem :=
  plainFunction [⟨false, [.word "command_action"], .nothing⟩, ⟨false, [.word "call_function"], .nothing⟩]
    [byteInput [⟨false, [.word "arg"], .arguments .parenthesis (code "label =" ++ [.word label])⟩] sizeName]

/-- The label `size__size` gives the aliases of the name, so it may be lost. -/
theorem peers_of_repeated_with_own_name : ∃ g g' peers peers',
    ofItem .commandAction [] (stacked "size__size").tokens = .expanded g peers ∧
      ofItem .callFunction [] (stacked "size__size").tokens = .expanded g' peers' ∧
      parseFunction g.tokens = .ok g ∧ (ofItem .callFunction [] g.tokens).peers = peers' := by
  have hitem : parseFunction (stacked "size__size").tokens = .ok (stacked "size__size") :=
    eq_ok_of_toOption (by decide +kernel)
  have hexpanded : ∀ kind ∈ [DirectiveKind.commandAction, .callFunction],
      (ofItem kind [] (stacked "size__size").tokens).peers ≠ [] := by decide +kernel
  obtain ⟨g, hfirst⟩ := eq_expanded_of_peers rfl (hexpanded .commandAction (by simp))
  obtain ⟨g', hsecond⟩ := eq_expanded_of_peers rfl (hexpanded .callFunction (by simp))
  obtain ⟨rfl, -⟩ := (ofItem_eq_expanded_iff hitem).mp hfirst
  obtain ⟨hagain, hlost⟩ := (peers_of_repeated_eq_iff hitem hfirst hsecond).2 hitem rfl
  refine ⟨_, g', _, _, hfirst, hsecond, hagain, hlost.mpr ?_⟩
  have hdeclared : (stacked "size__size").declare.1.parameters = [⟨"size__size", "size", "u8", none⟩] := by decide +kernel
  have hbound : (stacked "size__size").declare.1.boundParameters .callFunction = [⟨"size__size", "size", "u8", none⟩] := by
    rw [WorkFunction.boundParameters, hdeclared]
    rfl
  constructor
  · rw [hbound]
    decide +kernel
  · rw [hdeclared]
    decide +kernel
  · rw [hbound]
    simp

/-- The label `s` is lost: the peer of the second directive knows the parameter under its name only. A check of the source
reports both directives as bound, each with the label. -/
theorem peers_of_repeated_without_label :
    (ofItem .commandAction [] (stacked "s").tokens).messages = [] ∧
      (ofItem .commandAction [] (stacked "s").tokens).peers ≠ [] ∧
      (ofItem .callFunction [] (stacked "s").tokens).messages = [] ∧
      (ofItem .callFunction [] (stacked "s").tokens).peers ≠ [] ∧
      (ofItem .callFunction [] (ofItem .commandAction [] (stacked "s").tokens).itemTokens).peers ≠
        (ofItem .callFunction [] (stacked "s").tokens).peers ∧
      (Report.ofFunction {} (stacked "s")).map (fun r => (r.directive, r.outcome.toOption.map fun b =>
        b.parameters.map (·.label))) = [(.commandAction, some ["s"]), (.callFunction, some ["s"])] := by
  decide +kernel

end Expansion

end CommandBinding
