import CommandBinding.Peer.Generation
import CommandBinding.Proofs.Steps

/-!
What generated peers are made of. Whatever the directive, one peer calls the work function; it reads the labels and the
parameters of the binding and binds one local for each parameter. Generation looks at nothing else of the parameters, and
it succeeds exactly if the texts that it reads are code.
-/
namespace CommandBinding

open Source

/-- Whether a text is the type of a successful call; the empty text stands for none. -/
def IsTypeText (text : String) : Prop :=
  text = "" ∨ ∃ type, parseType text = .ok type

/-- Whether the default that a peer writes for a parameter, if there is one, is an expression. -/
def BoundParameter.HasCode (p : BoundParameter) : Prop :=
  (p.category = .metaFlag ∨ ∃ type, p.category = .value type) →
    ∀ text, p.default? = some text → ∃ expression, parseExpression text = .ok expression

/-- Whether the texts of a binding that generation reads are code. -/
structure Binding.IsCode (b : Binding) (directive : Directive) : Prop where
  runtime : ∃ path, parsePath directive.runtimePath = .ok path
  defaults : ∀ p ∈ b.parameters, p.HasCode
  returned : b.kind = .callFunction → IsTypeText b.function.returnType
  element : ∀ state, b.kind = .commandAction → b.state = some state → IsTypeText state.elementType

namespace Peer

variable {f : FunctionItem} {b other : Binding} {directive : Directive} {settings : Settings} {peers : List Peer}
  {p : BoundParameter} {text : String}

theorem exists_expressionOf_iff :
    (∃ tokens, expressionOf text = .ok tokens) ↔ ∃ expression, parseExpression text = .ok expression := by
  unfold expressionOf
  cases parseExpression text <;> simp

theorem exists_typeOf_iff : (∃ tokens, typeOf text = .ok tokens) ↔ IsTypeText text := by
  unfold typeOf IsTypeText
  split
  · next h => simp [h]
  · next h => cases parseType text <;> simp [h]

theorem exists_runtimeOf_iff :
    (∃ tokens, runtimeOf directive = .ok tokens) ↔ ∃ path, parsePath directive.runtimePath = .ok path := by
  unfold runtimeOf
  cases parsePath directive.runtimePath <;> simp

theorem exists_frameOf_iff :
    (∃ frame, frameOf f directive = .ok frame) ↔ ∃ path, parsePath directive.runtimePath = .ok path := by
  rw [← exists_runtimeOf_iff]
  simp [frameOf, bind_eq_ok_iff, pure, Except.pure]

theorem localOf_eq_ok_iff {l : Local} :
    localOf p = .ok l ↔ nameOf p.name = .ok l.name ∧ sourceOf p = .ok l.source := by
  obtain ⟨name, source⟩ := l
  simp [localOf, bind_eq_ok_iff, pure, Except.pure]

theorem readingOf_eq_ok_iff {configuration : ConfigurationSource} {reading : ArgumentReading} :
    readingOf b configuration = .ok reading ↔ reading.configuration = configuration ∧
      reading.labels = b.tables.labels ∧ List.Forall₂ (fun p l => localOf p = .ok l) b.parameters reading.locals := by
  obtain ⟨configuration', labels, locals⟩ := reading
  simp only [readingOf, bind_eq_ok_iff, pure, Except.pure, Except.ok.injEq, ArgumentReading.mk.injEq, mapM_eq_ok_iff]
  constructor
  · rintro ⟨locals', hlocals, rfl, rfl, rfl⟩
    exact ⟨rfl, rfl, hlocals⟩
  · rintro ⟨rfl, rfl, hlocals⟩
    exact ⟨locals, hlocals, rfl, rfl, rfl⟩

/-- The names that the work function is called with behind the locals. -/
def namesBehind (b : Binding) : List String :=
  match b.kind, b.state with
  | .commandAction, some state => wiringNames state
  | _, _ => []

def IsCaller (kind : DirectiveKind) (reading : ArgumentReading) (call : WorkCall) (role : PeerRole) : Prop :=
  match kind with
  | .mainFunction => role = .main reading call
  | .callFunction => ∃ successType, role = .call reading call successType
  | .commandAction => ∃ state, role = .action reading call state

/-- The peer of a binding that calls the work function, what it reads and what it calls it with. -/
structure Serves (f : FunctionItem) (b : Binding) (peers : List Peer) (peer : Peer) (reading : ArgumentReading)
    (call : WorkCall) : Prop where
  mem : peer ∈ peers
  only : ∀ other ∈ peers, other.role.workCall? ≠ none → other = peer
  role : IsCaller b.kind reading call peer.role
  labels : reading.labels = b.tables.labels
  locals : List.Forall₂ (fun p l => localOf p = .ok l) b.parameters reading.locals
  function : call.function = f.signature.name
  arguments : ∃ more, (namesBehind b).mapM nameOf = .ok more ∧ call.arguments = reading.locals.map (·.name) ++ more

theorem IsCaller.reading? {kind : DirectiveKind} {reading : ArgumentReading} {call : WorkCall} {role : PeerRole}
    (h : IsCaller kind reading call role) : role.reading? = some reading ∧ role.workCall? = some call := by
  cases kind with
  | mainFunction =>
    obtain rfl : role = .main reading call := h
    exact ⟨rfl, rfl⟩
  | callFunction =>
    obtain ⟨successType, rfl⟩ := h
    exact ⟨rfl, rfl⟩
  | commandAction =>
    obtain ⟨state, rfl⟩ := h
    exact ⟨rfl, rfl⟩

def callWith (f : FunctionItem) (b : Binding) (reading : ArgumentReading) (more : List Name) : WorkCall :=
  ⟨f.signature.name, reading.locals.map (·.name) ++ more, b.function.isAsync, b.function.fallible⟩

theorem workCallOf_eq_ok_iff {reading : ArgumentReading} {names : List String} {call : WorkCall} :
    workCallOf f b reading names = .ok call ↔
      ∃ more, names.mapM nameOf = .ok more ∧ callWith f b reading more = call := by
  simp only [workCallOf, bind_eq_ok_iff, pure, Except.pure, Except.ok.injEq, callWith]

theorem exists_serves_of_mainOf {peer : Peer} (hkind : b.kind = .mainFunction) (h : mainOf f b directive = .ok peer) :
    ∃ reading call, Serves f b [peer] peer reading call := by
  simp only [mainOf, bind_eq_ok_iff, pure, Except.pure, Except.ok.injEq, readingOf_eq_ok_iff,
    workCallOf_eq_ok_iff] at h
  obtain ⟨frame, -, configuration, -, reading, ⟨-, hlabels, hlocals⟩, call, ⟨more, hmore, rfl⟩, rfl⟩ := h
  refine ⟨reading, callWith f b reading more, List.mem_singleton.mpr rfl, ?_, ?_, hlabels, hlocals, rfl, more, ?_, rfl⟩
  · exact fun other hother _ => List.mem_singleton.mp hother
  · rw [hkind]
    rfl
  · simpa [namesBehind, hkind] using hmore

theorem exists_serves_of_callOf {peer : Peer} (hkind : b.kind = .callFunction) (h : callOf f b directive = .ok peer) :
    ∃ reading call, Serves f b [peer] peer reading call := by
  simp only [callOf, bind_eq_ok_iff, pure, Except.pure, Except.ok.injEq, readingOf_eq_ok_iff,
    workCallOf_eq_ok_iff] at h
  obtain ⟨frame, -, successType, -, configuration, -, reading, ⟨-, hlabels, hlocals⟩, call, ⟨more, hmore, rfl⟩, rfl⟩ := h
  refine ⟨reading, callWith f b reading more, List.mem_singleton.mpr rfl, ?_, ?_, hlabels, hlocals, rfl, more, ?_, rfl⟩
  · exact fun other hother _ => List.mem_singleton.mp hother
  · rw [hkind]
    exact ⟨successType, rfl⟩
  · simpa [namesBehind, hkind] using hmore

theorem exists_serves_of_actionsOf (hkind : b.kind = .commandAction) (h : actionsOf f b directive settings = .ok peers) :
    ∃ peer reading call, Serves f b peers peer reading call := by
  cases hstate : b.state with
  | none => simp [actionsOf, hstate, bind_eq_ok_iff, throw, throwThe, MonadExceptOf.throw] at h
  | some state =>
    simp only [actionsOf, hstate, bind_eq_ok_iff, pure, Except.pure, Except.ok.injEq, readingOf_eq_ok_iff,
      workCallOf_eq_ok_iff] at h
    obtain ⟨frame, -, configuration, -, elementType, -, chainNode, -, reading, ⟨-, hlabels, hlocals⟩, call,
      ⟨more, hmore, rfl⟩, rfl⟩ := h
    refine ⟨_, reading, callWith f b reading more, List.mem_cons_of_mem _ (List.mem_singleton.mpr rfl), ?_, ?_, hlabels,
      hlocals, rfl, more, ?_, rfl⟩
    · intro other hother hcall
      rcases List.mem_cons.mp hother with rfl | hother
      · exact absurd rfl hcall
      · exact List.mem_singleton.mp hother
    · rw [hkind]
      exact ⟨_, rfl⟩
    · simpa [namesBehind, hkind, hstate] using hmore

/-- Of the peers of a binding one calls the work function. -/
theorem exists_serves (h : peersOf f b directive settings = .ok peers) :
    ∃ peer reading call, Serves f b peers peer reading call := by
  unfold peersOf at h
  split at h
  · next hkind =>
    simp only [bind_eq_ok_iff, pure, Except.pure, Except.ok.injEq] at h
    obtain ⟨peer, hpeer, rfl⟩ := h
    exact ⟨peer, exists_serves_of_mainOf hkind hpeer⟩
  · next hkind =>
    simp only [bind_eq_ok_iff, pure, Except.pure, Except.ok.injEq] at h
    obtain ⟨peer, hpeer, rfl⟩ := h
    exact ⟨peer, exists_serves_of_callOf hkind hpeer⟩
  · next hkind => exact exists_serves_of_actionsOf hkind h

/-- Two bindings with the same peers have the same labels and locals. -/
theorem reading_unique {g : FunctionItem} {peer peer' : Peer} {reading reading' : ArgumentReading} {call call' : WorkCall}
    (h : Serves f b peers peer reading call) (h' : Serves g other peers peer' reading' call') : reading = reading' := by
  obtain ⟨hreading, -⟩ := h.role.reading?
  obtain ⟨hreading', hcall'⟩ := h'.role.reading?
  -- Only one peer calls the work function, so both bindings are served by the same one.
  obtain rfl : peer' = peer := h.only peer' h'.mem (by simp [hcall'])
  exact Option.some.inj (hreading.symm.trans hreading')

/-- A binding that generation can fail on for its texts only. -/
structure IsNamed (b : Binding) (settings : Settings) : Prop where
  names : ∀ p ∈ b.parameters, ∃ name, nameOf p.name = .ok name
  payloads : ∀ p ∈ b.parameters, p.category = .metaFlag → p.default? ≠ none
  metaFlags : b.tables.metaFlags = b.parameters.filterMap RuntimeTables.metaFlagDefault?
  state : b.kind = .commandAction → ∃ state, b.state = some state
  chainNode : ∃ name, nameOf settings.chainNodeType = .ok name

theorem exists_sourceOf_iff (h : p.category = .metaFlag → p.default? ≠ none) :
    (∃ source, sourceOf p = .ok source) ↔ p.HasCode := by
  unfold BoundParameter.HasCode
  simp only [← exists_expressionOf_iff]
  cases hcategory : p.category with
  | value type =>
    cases hdefault : p.default? with
    | none => simp [sourceOf, hcategory, hdefault, pure, Except.pure]
    | some text => simp [sourceOf, hcategory, hdefault, bind_eq_ok_iff, pure, Except.pure]
  | metaFlag =>
    obtain ⟨text, hdefault⟩ := Option.ne_none_iff_exists'.mp (h hcategory)
    simp [sourceOf, hcategory, hdefault, bind_eq_ok_iff, pure, Except.pure]
  | _ => simp [sourceOf, hcategory, pure, Except.pure]

theorem exists_readingOf_iff (h : IsNamed b settings) (configuration : ConfigurationSource) :
    (∃ reading, readingOf b configuration = .ok reading) ↔ ∀ p ∈ b.parameters, p.HasCode := by
  have hlocal : ∀ p ∈ b.parameters, (∃ l, localOf p = .ok l) ↔ p.HasCode := by
    intro p hp
    obtain ⟨name, hname⟩ := h.names p hp
    rw [← exists_sourceOf_iff (h.payloads p hp)]
    simp [localOf, hname, bind_eq_ok_iff, pure, Except.pure]
  have hreading : (∃ reading, readingOf b configuration = .ok reading) ↔
      ∃ locals, b.parameters.mapM localOf = .ok locals := by
    simp [readingOf, bind_eq_ok_iff, pure, Except.pure]
  rw [hreading, exists_mapM_eq_ok_iff]
  exact forall₂_congr hlocal

/-- The configuration holds no other code than the defaults of the parameters. -/
theorem exists_configurationOf (h : IsNamed b settings) (hcode : ∀ p ∈ b.parameters, p.HasCode) :
    ∃ configuration, configurationOf b.tables = .ok configuration := by
  have hpayloads : ∃ payloads, b.tables.metaFlags.mapM payloadOf = .ok payloads := by
    rw [exists_mapM_eq_ok_iff, h.metaFlags]
    intro d hd
    obtain ⟨p, hp, hdefault⟩ := List.mem_filterMap.mp hd
    simp only [RuntimeTables.metaFlagDefault?, Option.ite_none_right_eq_some, Option.map_eq_some_iff] at hdefault
    obtain ⟨hcategory, text, htext, rfl⟩ := hdefault
    obtain ⟨tokens, htokens⟩ := exists_expressionOf_iff.mpr (hcode p hp (Or.inl hcategory) text htext)
    exact ⟨⟨p.name, tokens⟩, by simp [payloadOf, htokens, bind, Except.bind, pure, Except.pure]⟩
  obtain ⟨payloads, hpayloads⟩ := hpayloads
  exact ⟨⟨b.tables.shadowGroups, payloads⟩, by simp [configurationOf, hpayloads, bind, Except.bind, pure, Except.pure]⟩

theorem exists_workCallOf (reading : ArgumentReading) (names : List String)
    (h : ∀ name ∈ names, name = nodePathName ∨ name = stateName) : ∃ call, workCallOf f b reading names = .ok call := by
  have hmore : ∃ more, names.mapM nameOf = .ok more := by
    rw [exists_mapM_eq_ok_iff]
    intro name hname
    rcases h name hname with rfl | rfl
    · exact exists_eq_ok_of_isSome (by decide +kernel)
    · exact exists_eq_ok_of_isSome (by decide +kernel)
  obtain ⟨more, hmore⟩ := hmore
  exact ⟨_, workCallOf_eq_ok_iff.mpr ⟨more, hmore, rfl⟩⟩

theorem mem_wiringNames (state : StateThread) : ∀ name ∈ wiringNames state, name = nodePathName ∨ name = stateName := by
  unfold wiringNames
  split <;> simp

theorem exists_mainOf_iff (h : IsNamed b settings) : (∃ peer, mainOf f b directive = .ok peer) ↔
    (∃ path, parsePath directive.runtimePath = .ok path) ∧ ∀ p ∈ b.parameters, p.HasCode := by
  simp only [mainOf, exists_bind_eq_ok_iff]
  constructor
  · rintro ⟨frame, hframe, _, _, reading, hreading, _⟩
    exact ⟨exists_frameOf_iff.mp ⟨frame, hframe⟩, (exists_readingOf_iff h _).mp ⟨reading, hreading⟩⟩
  · rintro ⟨hpath, hcode⟩
    obtain ⟨frame, hframe⟩ := exists_frameOf_iff.mpr hpath
    obtain ⟨configuration, hconfiguration⟩ := exists_configurationOf h hcode
    obtain ⟨reading, hreading⟩ := (exists_readingOf_iff h (.built configuration)).mpr hcode
    obtain ⟨call, hcall⟩ := exists_workCallOf reading [] (by simp)
    exact ⟨frame, hframe, configuration, hconfiguration, reading, hreading, call, hcall, _, rfl⟩

theorem exists_callOf_iff (h : IsNamed b settings) : (∃ peer, callOf f b directive = .ok peer) ↔
    (∃ path, parsePath directive.runtimePath = .ok path) ∧ (∀ p ∈ b.parameters, p.HasCode) ∧
      IsTypeText b.function.returnType := by
  simp only [callOf, exists_bind_eq_ok_iff]
  constructor
  · rintro ⟨frame, hframe, type, htype, _, _, reading, hreading, _⟩
    exact ⟨exists_frameOf_iff.mp ⟨frame, hframe⟩, (exists_readingOf_iff h _).mp ⟨reading, hreading⟩,
      exists_typeOf_iff.mp ⟨type, htype⟩⟩
  · rintro ⟨hpath, hcode, hreturned⟩
    obtain ⟨frame, hframe⟩ := exists_frameOf_iff.mpr hpath
    obtain ⟨type, htype⟩ := exists_typeOf_iff.mpr hreturned
    obtain ⟨configuration, hconfiguration⟩ := exists_configurationOf h hcode
    obtain ⟨reading, hreading⟩ := (exists_readingOf_iff h (.built configuration)).mpr hcode
    obtain ⟨call, hcall⟩ := exists_workCallOf reading [] (by simp)
    exact ⟨frame, hframe, type, htype, configuration, hconfiguration, reading, hreading, call, hcall, _, rfl⟩

theorem exists_actionsOf_iff (h : IsNamed b settings) {state : StateThread} (hstate : b.state = some state) :
    (∃ peers, actionsOf f b directive settings = .ok peers) ↔
      (∃ path, parsePath directive.runtimePath = .ok path) ∧ (∀ p ∈ b.parameters, p.HasCode) ∧
        IsTypeText state.elementType := by
  simp only [actionsOf, hstate, exists_bind_eq_ok_iff]
  constructor
  · rintro ⟨frame, hframe, _, _, type, htype, _, _, reading, hreading, _⟩
    exact ⟨exists_frameOf_iff.mp ⟨frame, hframe⟩, (exists_readingOf_iff h _).mp ⟨reading, hreading⟩,
      exists_typeOf_iff.mp ⟨type, htype⟩⟩
  · rintro ⟨hpath, hcode, helement⟩
    obtain ⟨frame, hframe⟩ := exists_frameOf_iff.mpr hpath
    obtain ⟨configuration, hconfiguration⟩ := exists_configurationOf h hcode
    obtain ⟨type, htype⟩ := exists_typeOf_iff.mpr helement
    obtain ⟨chainNode, hchainNode⟩ := h.chainNode
    obtain ⟨reading, hreading⟩ := (exists_readingOf_iff h .called).mpr hcode
    obtain ⟨call, hcall⟩ := exists_workCallOf reading (wiringNames state) (mem_wiringNames state)
    exact ⟨frame, hframe, configuration, hconfiguration, type, htype, chainNode, hchainNode, reading, hreading, call,
      hcall, _, rfl⟩

theorem exists_singleton_iff {x : Except PeerError Peer} :
    (∃ peers, (do return [← x]) = Except.ok (ε := PeerError) peers) ↔ ∃ peer, x = .ok peer := by
  simp [exists_bind_eq_ok_iff, pure, Except.pure]

/-- Peers are generated exactly if the texts that they are generated from are code. -/
theorem exists_peersOf_iff (h : IsNamed b settings) :
    (∃ peers, peersOf f b directive settings = .ok peers) ↔ b.IsCode directive := by
  unfold peersOf
  split
  · next hkind =>
    rw [exists_singleton_iff, exists_mainOf_iff h]
    constructor
    · rintro ⟨hpath, hcode⟩
      exact ⟨hpath, hcode, by simp [hkind], by simp [hkind]⟩
    · exact fun hcode => ⟨hcode.runtime, hcode.defaults⟩
  · next hkind =>
    rw [exists_singleton_iff, exists_callOf_iff h]
    constructor
    · rintro ⟨hpath, hcode, hreturned⟩
      exact ⟨hpath, hcode, fun _ => hreturned, by simp [hkind]⟩
    · exact fun hcode => ⟨hcode.runtime, hcode.defaults, hcode.returned hkind⟩
  · next hkind =>
    obtain ⟨state, hstate⟩ := h.state hkind
    rw [exists_actionsOf_iff h hstate]
    constructor
    · rintro ⟨hpath, hcode, helement⟩
      refine ⟨hpath, hcode, by simp [hkind], fun other _ hother => ?_⟩
      exact Option.some.inj (hstate.symm.trans hother) ▸ helement
    · exact fun hcode => ⟨hcode.runtime, hcode.defaults, hcode.element state hkind hstate⟩

/-- Of its parameters, generation looks only at the locals that they make. -/
theorem peersOf_congr (hkind : other.kind = b.kind) (htables : other.tables = b.tables) (hstate : other.state = b.state)
    (hlocals : other.parameters.map localOf = b.parameters.map localOf)
    (hasync : other.function.isAsync = b.function.isAsync) (hfallible : other.function.fallible = b.function.fallible)
    (hreturn : other.function.returnType = b.function.returnType) :
    peersOf f other directive settings = peersOf f b directive settings := by
  have hmapM : other.parameters.mapM localOf = b.parameters.mapM localOf := by
    have h := congrArg (List.mapM id) hlocals
    simpa only [List.mapM_map, Function.id_comp] using h
  have hreading : ∀ configuration, readingOf other configuration = readingOf b configuration := by
    intro configuration
    rw [readingOf, readingOf, htables, hmapM]
  have hcall : ∀ reading names, workCallOf f other reading names = workCallOf f b reading names := by
    intro reading names
    rw [workCallOf, workCallOf, hasync, hfallible]
  simp only [peersOf, mainOf, callOf, actionsOf, hkind, htables, hstate, hreturn, hreading, hcall]

end Peer

end CommandBinding
