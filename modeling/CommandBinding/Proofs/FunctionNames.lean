import CommandBinding.Proofs.ExpansionOutcomes

/-!
The functions in the code of an expansion, and their names. No two peers have the same name, but nothing keeps the work
function from having the name of a peer. Its name is only looked at to refuse the form of a reserved one, and no peer has a
name of that form; so whatever function is expanded, it is expanded under the name of a peer as well.
-/
namespace CommandBinding

open Source

namespace DirectiveKind

theorem nodup_peerNames (kind : DirectiveKind) : kind.peerNames.Nodup := by
  cases kind <;> decide

theorem not_isReservedName_of_mem_peerNames (kind : DirectiveKind) :
    ∀ name ∈ kind.peerNames, WorkFunction.isReservedName name = false := by
  cases kind <;> decide +kernel

end DirectiveKind

def WorkFunction.renamed (f : WorkFunction) (name : String) : WorkFunction :=
  { f with name }

def Binding.renamed (b : Binding) (name : String) : Binding :=
  { b with commandName := callName name, function := b.function.renamed name }

def Source.FunctionItem.renamed (f : FunctionItem) (name : Name) : FunctionItem :=
  { f with signature := { f.signature with name } }

theorem Binding.isCode_renamed {b : Binding} {directive : Directive} (h : b.IsCode directive) (name : String) :
    (b.renamed name).IsCode directive := by
  obtain ⟨kind, commandName, function, parameters, tables, state⟩ := b
  exact ⟨h.runtime, h.defaults, h.returned, h.element⟩

namespace WorkFunction

variable {f : WorkFunction} {directive : Directive} {settings : Settings} {b : Binding} {name : String}

theorem threadedFor_renamed (kind : DirectiveKind) : (f.renamed name).threadedFor kind settings =
    (f.threadedFor kind settings).map fun threaded => (threaded.1.renamed name, threaded.2) := by
  have hresolve : StateThread.resolve (f.renamed name) settings = StateThread.resolve f settings := rfl
  cases hkind : kind.threadsState with
  | false =>
    rw [threadedFor_of_not_threadsState hkind, threadedFor_of_not_threadsState hkind]
    rfl
  | true =>
    rw [threadedFor_of_threadsState hkind, threadedFor_of_threadsState hkind, hresolve]
    cases StateThread.resolve f settings <;> rfl

theorem allFindings_renamed (h : isReservedName name = isReservedName f.name) :
    (f.renamed name).allFindings directive settings = f.allFindings directive settings := by
  have husage : (f.renamed name).usageFindings directive.kind = f.usageFindings directive.kind := by
    have hname : isReservedName (f.renamed name).name = isReservedName f.name := h
    rw [usageFindings, usageFindings, hname]
    rfl
  have hthreaded : failures ((f.renamed name).threadedFor directive.kind settings) =
      failures (f.threadedFor directive.kind settings) := by
    rw [threadedFor_renamed]
    cases f.threadedFor directive.kind settings <;> rfl
  have hgroups : (f.renamed name).groupsFor directive settings = f.groupsFor directive settings := rfl
  rw [allFindings, allFindings, husage, hthreaded, hgroups]
  rfl

theorem not_isReservedName_of_bind (h : f.bind directive settings = .ok b) : isReservedName f.name = false := by
  have hname := (bindable_of_bind h).functionName
  rw [Bool.eq_false_iff, isReservedName]
  simpa [and_assoc] using hname

/-- A name that is not reserved has no part in the binding of a function, other than that it is kept. -/
theorem bind_renamed (h : isReservedName name = isReservedName f.name) (hbind : f.bind directive settings = .ok b) :
    (f.renamed name).bind directive settings = .ok (b.renamed name) := by
  obtain ⟨hfindings, groups, function, state, hgroups, hthreaded, rfl⟩ := bind_eq_ok_iff.mp hbind
  refine bind_eq_ok_iff.mpr ⟨(allFindings_renamed h).trans hfindings, groups, function.renamed name, state, hgroups, ?_, rfl⟩
  rw [threadedFor_renamed, hthreaded]
  rfl

end WorkFunction

namespace Source.FunctionItem

variable {f : FunctionItem}

theorem declaredHead_renamed (s : Signature) (visibility : List Token) (name : Name) :
    { s with name }.declaredHead visibility = (s.declaredHead visibility).renamed name.plain := by
  have hgenerics : { s with name }.genericTokens = s.genericTokens := rfl
  have hmodifiers : { s with name }.modifiers visibility = s.modifiers visibility := rfl
  have hfallible : { s with name }.isFallible = s.isFallible := rfl
  simp only [Signature.declaredHead, hgenerics, hmodifiers, hfallible]
  cases s.output? with
  | none => rfl
  | some output => simp only [WorkFunction.renamed, WorkFunction.returning]

theorem declare_renamed (f : FunctionItem) (name : Name) :
    (f.renamed name).declare = (f.declare.1.renamed name.plain, f.declare.2) := by
  simp only [declare, renamed, Signature.declare, declaredHead_renamed]
  rfl

end Source.FunctionItem

namespace Peer

theorem leadsIn_head {frame : PeerFrame} (h : ∀ t ∈ frame.visibility, LeadsIn t) (isAsync : Bool) :
    ∀ t ∈ frame.visibility ++ (if isAsync then code "async" else []), LeadsIn t := by
  have hcode : code "async" = [.word "async"] := by decide +kernel
  rw [hcode, List.forall_mem_append]
  refine ⟨h, fun t ht => ?_⟩
  cases isAsync with
  | false => cases ht
  | true =>
    obtain rfl := List.mem_singleton.mp ht
    exact leadsIn_word (by decide)

/-- The code of a peer begins with its head; an action is allowed not to use all of its parameters. -/
theorem exists_head_isPrefix (peer : Peer) : ∃ before isAsync generics, (∀ t ∈ before, LeadsIn t) ∧
    before ++ peer.frame.head isAsync peer.role.functionName generics <+: peer.tokens := by
  obtain ⟨frame, role⟩ := peer
  cases role with
  | main reading call =>
    refine ⟨[], false, [], by simp, ?_⟩
    simp only [tokens, mainCode, PeerRole.functionName, List.append_assoc, List.nil_append]
    exact List.prefix_append _ _
  | call reading work successType =>
    refine ⟨[], frame.isAsync, frame.generics, by simp, ?_⟩
    simp only [tokens, callCode, PeerRole.functionName, List.append_assoc, List.nil_append]
    exact List.prefix_append _ _
  | configuration configuration =>
    refine ⟨[], false, [], by simp, ?_⟩
    simp only [tokens, configurationCode, PeerRole.functionName, List.append_assoc, List.nil_append]
    exact List.prefix_append _ _
  | action reading work state =>
    have hsign : code "#" = [.mark '#' false] := by decide +kernel
    refine ⟨code "#" ++ inBrackets (code "allow" ++ inParentheses (code "unused_variables")), frame.isAsync, frame.generics,
      ?_, ?_⟩
    · intro t ht
      have ht : t = .mark '#' false ∨ t = .group .bracket (code "allow" ++ inParentheses (code "unused_variables")) := by
        simpa [hsign, inBrackets] using ht
      rcases ht with rfl | rfl
      · exact ⟨by simp, by simp⟩
      · exact leadsIn_group _ _
    · simp only [tokens, actionCode, PeerRole.functionName, List.append_assoc, List.prefix_append_right_inj]
      exact List.prefix_append _ _

/-- A peer has the name of its role behind the first word `fn` in its code. -/
theorem definedName?_tokens {peer : Peer} (h : ∀ t ∈ peer.frame.visibility, LeadsIn t) :
    definedName? peer.tokens = some peer.role.functionName := by
  obtain ⟨before, isAsync, generics, hbefore, behind, htokens⟩ := exists_head_isPrefix peer
  have hfn : code "fn" = [.word "fn"] := by decide +kernel
  have hname : code peer.role.functionName = [.word peer.role.functionName] ∧
      unraw peer.role.functionName = peer.role.functionName := by
    have hnames : ∀ name ∈ ["main", "call", "action_config", "action"], code name = [.word name] ∧ unraw name = name := by
      decide +kernel
    refine hnames _ ?_
    cases peer.role <;> simp [PeerRole.functionName]
  have hlead := List.forall_mem_append.mpr ⟨hbefore, leadsIn_head h isAsync⟩
  have hhead : peer.tokens = before ++ (peer.frame.visibility ++ (if isAsync then code "async" else [])) ++
      .word "fn" :: .word peer.role.functionName :: (generics ++ behind) := by
    simp only [← htokens, PeerFrame.head, hfn, hname.1, List.append_assoc, List.cons_append, List.nil_append]
  rw [hhead, definedName?_of_leads hlead, hname.2]

end Peer

namespace Expansion

variable {f : FunctionItem} {kind : DirectiveKind} {arguments item : List Token}

/-- The code of each function that is written. -/
def functions : Expansion → List (List Token)
  | notFunction _ => []
  | failed _ function => [function.tokens]
  | expanded function peers => function.tokens :: peers.map Peer.tokens

theorem messages_eq_nil_iff :
    (ofFunction kind arguments f).messages = [] ↔ ∃ g peers, ofFunction kind arguments f = .expanded g peers := by
  rcases ofFunction_failed_or_expanded f kind arguments with ⟨found, h, hfails⟩ | ⟨directive, b, peers, h, -⟩
  · simpa [h, messages] using hfails.messages_ne_nil
  · simp [h, messages]

/-- An expansion of a function writes functions behind its errors, and nothing else. -/
theorem tokens_eq_functions : (ofFunction kind arguments f).tokens =
    (ofFunction kind arguments f).messages.flatMap compileError ++ (ofFunction kind arguments f).functions.flatten := by
  rcases ofFunction_failed_or_expanded f kind arguments with ⟨found, h, -⟩ | ⟨directive, b, peers, h, -⟩
  · simp [h, tokens, messages, itemTokens, Expansion.peers, functions]
  · simp [h, tokens, messages, itemTokens, Expansion.peers, functions, List.flatMap_def]

/-- The names of the functions that are written are those of the work function and of its peers. -/
theorem names_of_functions (hlead : ∀ t ∈ f.lead, LeadsIn t) : (ofFunction kind arguments f).functions.map definedName? =
    some f.signature.name.plain :: (ofFunction kind arguments f).peers.map (some ·.role.functionName) := by
  have hown : definedName? f.withoutOptions.tokens = some f.signature.name.plain := FunctionItem.definedName?_tokens hlead
  rcases ofFunction_failed_or_expanded f kind arguments with ⟨found, h, -⟩ | ⟨directive, b, peers, h, hexpands⟩
  · simp only [h, functions, Expansion.peers, List.map_cons, List.map_nil, hown]
  · have hvisibility : ∀ t ∈ f.visibility, LeadsIn t := fun t ht => hlead t (by simp [FunctionItem.lead, ht])
    have hpeers : ∀ peer ∈ peers, definedName? peer.tokens = some peer.role.functionName := by
      intro peer hpeer
      have hframe := (Peer.peersOf_eq_ok hexpands.generates).1 peer hpeer
      exact Peer.definedName?_tokens (Peer.visibility_of_frameOf hframe ▸ hvisibility)
    simp only [h, functions, Expansion.peers, List.map_cons, List.map_map, hown, List.cons.injEq, true_and]
    exact List.map_congr_left hpeers

/-- The functions of an expansion have different names unless the work function has the name of a peer. -/
theorem nodup_names_iff (hlead : ∀ t ∈ f.lead, LeadsIn t) :
    ((ofFunction kind arguments f).functions.map definedName?).Nodup ↔
      ((ofFunction kind arguments f).messages = [] → f.signature.name.plain ∉ kind.peerNames) := by
  rw [names_of_functions hlead]
  rcases ofFunction_failed_or_expanded f kind arguments with ⟨found, h, hfails⟩ | ⟨directive, b, peers, h, hexpands⟩
  · simp [h, messages, Expansion.peers, hfails.messages_ne_nil]
  · have hnames : (peers.map (·.role.functionName)).Perm kind.peerNames := hexpands.names_perm
    have hdistinct : (peers.map (some ·.role.functionName)).Nodup := by
      have hnodup := hnames.nodup_iff.mpr kind.nodup_peerNames
      simpa [Function.comp_def] using hnodup.map (fun _ _ h => Option.some.inj h)
    have hmem : some f.signature.name.plain ∈ peers.map (some ·.role.functionName) ↔
        f.signature.name.plain ∈ kind.peerNames := by
      rw [← hnames.mem_iff]
      simp
    simp [h, messages, Expansion.peers, hdistinct, ← hmem]

/-- A function that is expanded is expanded under the name of a peer as well. -/
theorem messages_renamed {name : Name} (hname : name.plain ∈ kind.peerNames)
    (h : (ofFunction kind arguments f).messages = []) : (ofFunction kind arguments (f.renamed name)).messages = [] := by
  rw [messages_eq_nil_iff, exists_ofFunction_eq_expanded_iff] at h ⊢
  obtain ⟨directive, b, hreads, hbinds, hcode⟩ := h
  obtain ⟨hdeclare, hbind⟩ := FunctionItem.bind_eq_ok_iff.mp hbinds
  have hown : WorkFunction.isReservedName f.declare.1.name = false := WorkFunction.not_isReservedName_of_bind hbind
  have hpeer : WorkFunction.isReservedName name.plain = false := kind.not_isReservedName_of_mem_peerNames _ hname
  refine ⟨directive, b.renamed name.plain, hreads, ?_, Binding.isCode_renamed hcode name.plain⟩
  rw [FunctionItem.bind_eq_ok_iff, FunctionItem.declare_renamed]
  exact ⟨hdeclare, WorkFunction.bind_renamed (hpeer.trans hown.symm) hbind⟩

/-- The functions that an expansion writes have different names unless the work function has the name of a peer. Nothing is
reported in that case, and any function that is expanded at all comes to it by its name. -/
theorem functions_distinct_iff (kind : DirectiveKind) (arguments : List Token) (hitem : parseFunction item = .ok f) :
    (ofItem kind arguments item).tokens = (ofItem kind arguments item).messages.flatMap compileError ++
        (ofItem kind arguments item).functions.flatten ∧
      (((ofItem kind arguments item).functions.map definedName?).Nodup ↔
        ((ofItem kind arguments item).messages = [] → f.signature.name.plain ∉ kind.peerNames)) ∧
      ((ofItem kind arguments item).messages = [] → ∀ name : Name, name.plain ∈ kind.peerNames →
        (ofFunction kind arguments (f.renamed name)).messages = [] ∧
          ¬((ofFunction kind arguments (f.renamed name)).functions.map definedName?).Nodup) := by
  have hlead := FunctionItem.leadsIn_of_parseFunction hitem
  have hfunction : ofItem kind arguments item = ofFunction kind arguments f := by rw [ofItem, hitem]
  rw [hfunction]
  refine ⟨tokens_eq_functions, nodup_names_iff hlead, fun hexpanded name hname => ?_⟩
  have hrenamed := messages_renamed hname hexpanded
  refine ⟨hrenamed, fun hnodup => ?_⟩
  exact (nodup_names_iff (f := f.renamed name) hlead).mp hnodup hrenamed hname

/-- An entry point for a function that is itself named `main`. -/
theorem functions_not_distinct :
    (ofItem .mainFunction [] (code "fn main" ++ inParentheses [] ++ inBraces [])).messages = [] ∧
      ¬((ofItem .mainFunction [] (code "fn main" ++ inParentheses [] ++ inBraces [])).functions.map definedName?).Nodup := by
  have hitem : parseFunction (code "fn main" ++ inParentheses [] ++ inBraces []) =
      .ok ((plainFunction [] []).renamed ⟨"main", by decide +kernel⟩) := eq_ok_of_toOption (by decide +kernel)
  have hexpanded : (ofItem .mainFunction [] (code "fn main" ++ inParentheses [] ++ inBraces [])).messages = [] := by
    decide +kernel
  have hname : ((plainFunction [] []).renamed ⟨"main", by decide +kernel⟩).signature.name.plain ∈
      DirectiveKind.mainFunction.peerNames := by decide +kernel
  obtain ⟨-, hdistinct, -⟩ := functions_distinct_iff .mainFunction [] hitem
  exact ⟨hexpanded, fun hnodup => hdistinct.mp hnodup hexpanded hname⟩

end Expansion

end CommandBinding
