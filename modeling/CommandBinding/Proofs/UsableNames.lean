import CommandBinding.Proofs.ExpandedFunctions

/-!
Names that are written in peers. A binding keeps names as texts, and generation makes names of them again, which it
cannot do for every text. Peers are written with the names of the parameters, of the work function and, for an action,
of the functions and parameters that belong to it. In a function that is bound each of these texts is a name or has a
raw form, and generation makes names of no other texts.
-/
namespace CommandBinding

open Source

namespace Source

/-- Whether a text makes a name: it is one, or it is a reserved word that has a raw form. -/
def IsUsable (text : String) : Prop :=
  isName text = true ∨ text ∈ reservedWords ∧ hasRawForm text = true

variable {text : String}

theorem isUsable_plain (name : Name) : IsUsable name.plain := by
  obtain ⟨hidentifier, hraw⟩ := plain_cases name
  by_cases hreserved : name.plain ∈ reservedWords
  · exact Or.inr ⟨hreserved, hraw hreserved⟩
  · exact Or.inl (isName_of_isIdentifier hidentifier hreserved)

theorem isUsable_text (name : Name) : IsUsable name.text :=
  Or.inl name.text_isName

theorem not_mem_reservedWords_of_isName (h : isName text = true) : text ∉ reservedWords := by
  have hnone : ∀ word ∈ reservedWords, isName word = false := by decide +kernel
  intro hmem
  rw [hnone text hmem] at h
  cases h

/-- The words that have no raw form make no names. -/
theorem IsUsable.not_mem_neverRaw (h : IsUsable text) : text ∉ Lexer.neverRaw := by
  have hnone : ∀ word ∈ Lexer.neverRaw, isName word = false ∧ hasRawForm word = false := by decide +kernel
  intro hmem
  obtain ⟨hname, hraw⟩ := hnone text hmem
  rcases h with h | ⟨-, h⟩
  · simp [hname] at h
  · simp [hraw] at h

theorem IsUsable.ne_empty (h : IsUsable text) : text ≠ "" := by
  rintro rfl
  rcases h with h | ⟨-, h⟩ <;> revert h <;> decide +kernel

/-- The name that a usable text makes is written like it, or raw. -/
theorem IsUsable.exists_nameOf (h : IsUsable text) : ∃ name, Peer.nameOf text = .ok name ∧
    name.text = if text ∈ reservedWords then "r#" ++ text else text := by
  rcases h with h | ⟨hreserved, hraw⟩
  · have hunreserved : text ∉ reservedWords := not_mem_reservedWords_of_isName h
    exact ⟨⟨text, h⟩, by simp only [Peer.nameOf, ofText?_of_isName h], by rw [if_neg hunreserved]⟩
  · have hname : isName ("r#" ++ text) = true := (isName_raw text).trans hraw
    have hidentifier : isIdentifier text = true := (Bool.and_eq_true_iff.mp hraw).1
    have htext := ofText?_of_reserved hidentifier hreserved hname
    exact ⟨⟨"r#" ++ text, hname⟩, by simp only [Peer.nameOf, htext], by rw [if_pos hreserved]⟩

end Source

namespace Peer

variable {α β : Type} {names more : List String} {x : Except PeerError α} {step : α → Except PeerError β}
  {f : FunctionItem} {b : Binding} {directive : Directive} {settings : Settings}

/-- Whether a computation fails on a name only if it is one of those names and makes none. -/
def MakesNames (names : List String) (x : Except PeerError α) : Prop :=
  ∀ text, x = .error (.unusableName text) → text ∈ names ∧ nameOf text = .error (.unusableName text)

theorem MakesNames.bind (hx : MakesNames names x) (hstep : ∀ a, MakesNames names (step a)) :
    MakesNames names (x >>= step) := by
  intro text h
  rcases bind_eq_error_iff.mp h with h | ⟨a, -, h⟩
  · exact hx text h
  · exact hstep a text h

theorem MakesNames.pure (a : α) : MakesNames names (Pure.pure a) := by
  intro text h
  cases h

theorem MakesNames.mapM {xs : List β} {step : β → Except PeerError α} (h : ∀ y ∈ xs, MakesNames names (step y)) :
    MakesNames names (xs.mapM step) := by
  intro text herror
  obtain ⟨y, hy, hstep⟩ := exists_eq_error_of_mapM herror
  exact h y hy text hstep

theorem makesNames_nameOf {text : String} (h : text ∈ names) : MakesNames names (nameOf text) := by
  intro other herror
  have hother : other = text := by
    unfold nameOf at herror
    split at herror
    · cases herror
    · exact (PeerError.unusableName.inj (Except.error.inj herror)).symm
  subst hother
  exact ⟨h, herror⟩

theorem makesNames_expressionOf (text : String) : MakesNames names (expressionOf text) := by
  intro other herror
  unfold expressionOf at herror
  split at herror <;> cases herror

theorem makesNames_typeOf (text : String) : MakesNames names (typeOf text) := by
  intro other herror
  unfold typeOf at herror
  split at herror
  · cases herror
  · split at herror <;> cases herror

theorem makesNames_frameOf : MakesNames names (frameOf f directive) := by
  refine MakesNames.bind (fun other herror => ?_) fun runtime => MakesNames.pure _
  unfold runtimeOf at herror
  split at herror <;> cases herror

theorem makesNames_configurationOf (tables : RuntimeTables) : MakesNames names (configurationOf tables) := by
  refine MakesNames.bind (MakesNames.mapM fun d _ => ?_) fun payloads => MakesNames.pure _
  exact (makesNames_expressionOf d.default).bind fun expression => MakesNames.pure _

theorem makesNames_sourceOf (p : BoundParameter) : MakesNames names (sourceOf p) := by
  unfold sourceOf
  split
  · exact (makesNames_expressionOf _).bind fun expression => MakesNames.pure _
  · exact MakesNames.pure _
  · exact MakesNames.pure _
  · exact (makesNames_expressionOf _).bind fun expression => MakesNames.pure _
  · exact MakesNames.pure _
  · exact MakesNames.pure _
  · exact MakesNames.pure _

theorem makesNames_localOf {p : BoundParameter} (h : p.name ∈ names) : MakesNames names (localOf p) :=
  (makesNames_nameOf h).bind fun _ => (makesNames_sourceOf p).bind fun _ => MakesNames.pure _

theorem makesNames_readingOf (h : ∀ p ∈ b.parameters, p.name ∈ names) (configuration : ConfigurationSource) :
    MakesNames names (readingOf b configuration) :=
  (MakesNames.mapM fun p hp => makesNames_localOf (h p hp)).bind fun _ => MakesNames.pure _

theorem makesNames_workCallOf (reading : ArgumentReading) (h : ∀ name ∈ more, name ∈ names) :
    MakesNames names (workCallOf f b reading more) :=
  (MakesNames.mapM fun name hname => makesNames_nameOf (h name hname)).bind fun _ => MakesNames.pure _

/-- The names that peers are written with: those of the parameters, of the work function and, for an action, of the
functions and parameters that belong to it. -/
def passedNames (f : FunctionItem) (b : Binding) (settings : Settings) : List String :=
  f.signature.name.text :: b.parameters.map (·.name) ++
    if b.kind = .commandAction then ["action_config", nodePathName, stateName, settings.chainNodeType] else []

theorem name_mem_passedNames {p : BoundParameter} (hp : p ∈ b.parameters) : p.name ∈ passedNames f b settings :=
  List.mem_append_left _ (List.mem_cons_of_mem _ (List.mem_map_of_mem hp))

theorem makesNames_mainOf : MakesNames (passedNames f b settings) (mainOf f b directive) := by
  refine makesNames_frameOf.bind fun frame => (makesNames_configurationOf _).bind fun configuration => ?_
  refine (makesNames_readingOf (fun p hp => name_mem_passedNames hp) _).bind fun reading => ?_
  exact (makesNames_workCallOf reading (by simp)).bind fun call => MakesNames.pure _

theorem makesNames_callOf : MakesNames (passedNames f b settings) (callOf f b directive) := by
  refine makesNames_frameOf.bind fun frame => (makesNames_typeOf _).bind fun successType => ?_
  refine (makesNames_configurationOf _).bind fun configuration => ?_
  refine (makesNames_readingOf (fun p hp => name_mem_passedNames hp) _).bind fun reading => ?_
  exact (makesNames_workCallOf reading (by simp)).bind fun call => MakesNames.pure _

theorem makesNames_actionsOf (hkind : b.kind = .commandAction) :
    MakesNames (passedNames f b settings) (actionsOf f b directive settings) := by
  have hown : ∀ name ∈ ["action_config", nodePathName, stateName, settings.chainNodeType],
      name ∈ passedNames f b settings := by
    intro name hname
    rw [passedNames, if_pos hkind]
    exact List.mem_append_right _ hname
  refine makesNames_frameOf.bind fun frame => (makesNames_configurationOf _).bind fun configuration => ?_
  cases hstate : b.state with
  | none =>
    intro text h
    cases h
  | some state =>
    have hwiring : ∀ name ∈ wiringNames state, name ∈ passedNames f b settings := by
      intro name hname
      rcases mem_wiringNames state name hname with rfl | rfl <;> exact hown _ (by simp)
    refine (makesNames_typeOf _).bind fun elementType => (makesNames_nameOf (hown _ (by simp))).bind fun chainNode => ?_
    refine (makesNames_readingOf (fun p hp => name_mem_passedNames hp) _).bind fun reading => ?_
    exact (makesNames_workCallOf reading hwiring).bind fun call => MakesNames.pure _

/-- Generation makes no other names. -/
theorem makesNames_peersOf : MakesNames (passedNames f b settings) (peersOf f b directive settings) := by
  unfold peersOf
  split
  · exact makesNames_mainOf.bind fun peer => MakesNames.pure _
  · exact makesNames_callOf.bind fun peer => MakesNames.pure _
  · next hkind => exact makesNames_actionsOf hkind

end Peer

namespace Expansion

variable {f : FunctionItem} {kind : DirectiveKind} {arguments item : List Token} {directive : Directive} {b : Binding}
  {text : String}

/-- What comes in front of the generation of peers when a directive is expanded. -/
structure Binds (kind : DirectiveKind) (arguments item : List Token) (f : FunctionItem) (directive : Directive)
    (b : Binding) : Prop where
  parses : parseFunction item = .ok f
  reads : directiveOfArguments kind arguments = .ok directive
  binds : f.bind directive {} = .ok b

/-- The names that a bound function passes on are names of its source, or fixed. -/
theorem isUsable_of_mem_passedNames (hbind : f.bind directive {} = .ok b)
    (h : text ∈ Peer.passedNames f.withoutOptions b {}) : IsUsable text := by
  obtain ⟨hdeclare, hwork⟩ := FunctionItem.bind_eq_ok_iff.mp hbind
  simp only [Peer.passedNames, List.mem_append, List.mem_cons, List.mem_map] at h
  rcases h with (rfl | ⟨p, hp, rfl⟩) | h
  · exact isUsable_text _
  · rw [WorkFunction.parameters_of_bind hwork] at hp
    obtain ⟨q, hq, rfl⟩ := List.mem_map.mp hp
    obtain ⟨name, hname⟩ := FunctionItem.exists_name_of_mem hdeclare (List.mem_filter.mp hq).1
    have hplain : (q.bound {}).name = name.plain := hname
    exact hplain ▸ isUsable_plain name
  · have hfixed : ∀ name ∈ ["action_config", nodePathName, stateName, ({} : Settings).chainNodeType],
        isName name = true := by decide +kernel
    split at h
    · exact Or.inl (hfixed text h)
    · cases h

/-- Whatever is expanded, the names that are passed on to its peers make names, as they are or raw, so generation does
not fail on a name. -/
theorem nameOf_passedNames (h : Binds kind arguments item f directive b) :
    (∀ text ∈ Peer.passedNames f.withoutOptions b {}, IsUsable text ∧ text ∉ Lexer.neverRaw ∧ text ≠ "" ∧
      ∃ name, Peer.nameOf text = .ok name ∧ name.text = if text ∈ reservedWords then "r#" ++ text else text) ∧
      ∀ text, Peer.peersOf f.withoutOptions b directive {} ≠ .error (.unusableName text) := by
  constructor
  · intro text htext
    have husable := isUsable_of_mem_passedNames h.binds htext
    exact ⟨husable, husable.not_mem_neverRaw, husable.ne_empty, husable.exists_nameOf⟩
  · intro text herror
    obtain ⟨hmem, hfails⟩ := Peer.makesNames_peersOf text herror
    obtain ⟨name, hname, -⟩ := (isUsable_of_mem_passedNames h.binds hmem).exists_nameOf
    rw [hname] at hfails
    cases hfails

/-- A parameter with the raw name `r#type` is bound as `type`, which makes the raw name again. -/
theorem nameOf_passedNames_of_raw_parameter : ∃ f directive b, Binds .commandAction [] f.tokens f directive b ∧
    Peer.passedNames f.withoutOptions b {} = ["f", "type", "action_config", "node_path", "state", "ChainNode"] ∧
      ∃ name, Peer.nameOf "type" = .ok name ∧ name.text = "r#type" := by
  let f := plainFunction [] [byteInput [] ⟨"r#type", by decide +kernel⟩]
  have hparses : parseFunction f.tokens = .ok f := eq_ok_of_toOption (by decide +kernel)
  obtain ⟨directive, hreads, hexpected⟩ : ∃ directive, directiveOfArguments .commandAction [] = .ok directive ∧
      (f.bind directive {}).toOption.map (Peer.passedNames f.withoutOptions · {}) =
        some ["f", "type", "action_config", "node_path", "state", "ChainNode"] :=
    ⟨_, rfl, by decide +kernel⟩
  obtain ⟨b, hbinds, hnames⟩ := Option.map_eq_some_iff.mp hexpected
  have h : Binds .commandAction [] f.tokens f directive b := ⟨hparses, hreads, eq_ok_of_toOption hbinds⟩
  obtain ⟨-, -, -, name, hname, htext⟩ := (nameOf_passedNames h).1 "type" (by simp [hnames])
  exact ⟨f, directive, b, h, hnames, name, hname, htext.trans (by decide +kernel)⟩

end Expansion

end CommandBinding
