import CommandBinding.Proofs.ExpansionOutcomes

/-!
What is written back of a function. However an expansion ends, the function is written as it was but for the attributes
of its parameters: those that carry options are dropped, and the others stay in their order. The receiver of a method
keeps all of its attributes, so an option is left exactly where one stands on a receiver. No function with a receiver is
bound, and what is left then stands behind an error.
-/
namespace CommandBinding

open Source

namespace Source

namespace Input

def attributes : Input → List Attribute
  | receiver attributes _ => attributes
  | typed input => input.attributes

/-- No attribute of the parameter carries options. -/
def IsFree (input : Input) : Prop :=
  ∀ a ∈ input.attributes, a.isNamed optionAttribute = false

def IsReceiver (input : Input) : Prop :=
  ∃ attributes self, input = .receiver attributes self

/-- How a parameter is written back. -/
inductive WritesBack : Input → Input → Prop
  | receiver (attributes : List Attribute) (self : List Token) :
    WritesBack (.receiver attributes self) (.receiver attributes self)
  | typed {input : TypedInput} {kept : List Attribute} :
    input.attributes.filter (!·.isNamed optionAttribute) = kept →
      WritesBack (.typed input) (.typed { input with attributes := kept })

variable {input written : Input}

theorem writesBack_withoutOptions (input : Input) : WritesBack input input.withoutOptions := by
  cases input with
  | receiver attributes self => exact .receiver attributes self
  | typed input => exact .typed rfl

/-- Only a receiver keeps an attribute that carries options. -/
theorem isFree_iff_of_writesBack (h : WritesBack input written) : written.IsFree ↔ (input.IsReceiver → input.IsFree) := by
  cases h with
  | receiver attributes self => simp [IsReceiver]
  | typed hkept =>
    subst hkept
    simp [IsReceiver, IsFree, attributes]

theorem not_isReceiver_of_declare {p : Parameter} (h : input.declare = .ok p) : ¬input.IsReceiver := by
  rintro ⟨attributes, self, rfl⟩
  cases h

theorem isFree_all_iff_of_writesBack {inputs outputs : List Input} (h : List.Forall₂ WritesBack inputs outputs) :
    (∀ output ∈ outputs, output.IsFree) ↔ ∀ input ∈ inputs, input.IsReceiver → input.IsFree := by
  induction h with
  | nil => simp
  | cons hinput _ ih => rw [List.forall_mem_cons, List.forall_mem_cons, isFree_iff_of_writesBack hinput, ih]

/-- No receiver is among the parameters of a function that is declared. -/
theorem not_isReceiver_of_declares {inputs : List Input} {ps : List Parameter} (h : Declare inputs ps) :
    ∀ input ∈ inputs, ¬input.IsReceiver := by
  induction h with
  | nil => simp
  | cons hinput _ ih => exact List.forall_mem_cons.mpr ⟨not_isReceiver_of_declare hinput, ih⟩

end Input

namespace FunctionItem

def withInputs (f : FunctionItem) (inputs : List Input) : FunctionItem :=
  { f with signature := { f.signature with inputs } }

/-- The parameters stand in one pair of parentheses, and nothing around it depends on them. -/
theorem exists_tokens_withInputs (f : FunctionItem) : ∃ before behind, ∀ inputs, (f.withInputs inputs).tokens =
    before ++ .group .parenthesis (f.withInputs inputs).signature.inputTokens :: behind := by
  refine ⟨f.lead ++ .word "fn" :: .word f.signature.name.text :: f.signature.genericTokens,
    f.signature.outputTokens ++ f.signature.bounds ++
      [.group .brace ((f.attributes.filter (·.isInner)).flatMap Attribute.tokens ++ f.body)], fun inputs => ?_⟩
  have hgenerics : (f.withInputs inputs).signature.genericTokens = f.signature.genericTokens := rfl
  have houtput : (f.withInputs inputs).signature.outputTokens = f.signature.outputTokens := rfl
  simp only [tokens, lead, Signature.tokens, hgenerics, houtput, List.append_assoc, List.cons_append, List.nil_append]
  rfl

end FunctionItem

end Source

namespace Expansion

variable {f : FunctionItem} {kind : DirectiveKind} {arguments item : List Token}

/-- However an expansion ends, it writes the function back with all but the options of its parameters. An option is left
where one stands on a receiver, and then the function is not bound. -/
theorem writes_function_back (kind : DirectiveKind) (arguments : List Token) (hitem : parseFunction item = .ok f) :
    ∃ inputs before behind,
      (ofItem kind arguments item).tokens = (ofItem kind arguments item).messages.flatMap compileError ++
        (f.withInputs inputs).tokens ++ (ofItem kind arguments item).peers.flatMap Peer.tokens ∧
      f.tokens = before ++ .group .parenthesis f.signature.inputTokens :: behind ∧
      (f.withInputs inputs).tokens =
        before ++ .group .parenthesis (f.withInputs inputs).signature.inputTokens :: behind ∧
      List.Forall₂ Input.WritesBack f.signature.inputs inputs ∧
      ((∀ input ∈ inputs, input.IsFree) ↔ ∀ input ∈ f.signature.inputs, input.IsReceiver → input.IsFree) ∧
      ((ofItem kind arguments item).messages = [] → ∀ input ∈ inputs, input.IsFree) := by
  have hwritten : List.Forall₂ Input.WritesBack f.signature.inputs (f.signature.inputs.map Input.withoutOptions) :=
    List.forall₂_map_right_iff.mpr (List.forall₂_same.mpr fun input _ => Input.writesBack_withoutOptions input)
  have hfree := Input.isFree_all_iff_of_writesBack hwritten
  obtain ⟨before, behind, hsplit⟩ := FunctionItem.exists_tokens_withInputs f
  have hfunction : ofItem kind arguments item = ofFunction kind arguments f := by rw [ofItem, hitem]
  rw [hfunction]
  refine ⟨_, before, behind, ?_, hsplit f.signature.inputs, hsplit _, hwritten, hfree, fun hexpanded => hfree.mpr ?_⟩
  · rcases ofFunction_failed_or_expanded f kind arguments with ⟨messages, h, -⟩ | ⟨directive, b, peers, h, -⟩
    all_goals
      rw [h]
      rfl
  · rcases ofFunction_failed_or_expanded f kind arguments with ⟨found, h, hfails⟩ | ⟨directive, b, peers, -, hexpands⟩
    · rw [h] at hexpanded
      exact absurd hexpanded hfails.messages_ne_nil
    · have hdeclared := FunctionItem.inputs_declare (FunctionItem.bind_eq_ok_iff.mp hexpands.binds).1
      exact fun input hinput hreceiver => absurd hreceiver (Input.not_isReceiver_of_declares hdeclared input hinput)

/-- A method with an option on its receiver. -/
def optionOnReceiver : FunctionItem :=
  plainFunction [] [.receiver [⟨false, [.word "arg"], .arguments .parenthesis (code "label = x")⟩] (code "& self")]

/-- Behind the error about its receiver the method still has the option. -/
theorem writes_function_back_with_option : ∃ inputs,
    (ofItem .callFunction [] optionOnReceiver.tokens).tokens =
        compileError "work functions cannot take a `self` receiver" ++ (optionOnReceiver.withInputs inputs).tokens ∧
      ¬∀ input ∈ inputs, input.IsFree := by
  have hitem : parseFunction optionOnReceiver.tokens = .ok optionOnReceiver := eq_ok_of_toOption (by decide +kernel)
  have hmessages : (ofItem .callFunction [] optionOnReceiver.tokens).messages =
      ["work functions cannot take a `self` receiver"] := by decide +kernel
  have hpeers : (ofItem .callFunction [] optionOnReceiver.tokens).peers = [] :=
    List.isEmpty_iff.mp (by decide +kernel)
  obtain ⟨inputs, -, -, htokens, -, -, -, hfree, -⟩ := writes_function_back .callFunction [] hitem
  refine ⟨inputs, ?_, fun hall => ?_⟩
  · simpa [hmessages, hpeers] using htokens
  · have hreceiver := hfree.mp hall _ (List.mem_singleton.mpr rfl) ⟨_, _, rfl⟩
    exact absurd (hreceiver _ (List.mem_singleton.mpr rfl)) (by decide)

end Expansion

end CommandBinding
