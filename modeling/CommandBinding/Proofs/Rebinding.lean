import CommandBinding.Proofs.BindingFindings

/-!
Binding the function of a binding again. A function that has got its state parameters declares them, so the second
binding reads off the declaration what the first one has worked out, and the two differ in nothing else.
-/
namespace CommandBinding

namespace StateThread

variable {f : WorkFunction} {settings : Settings} {state : Parameter} {before? : Option Parameter}
  {returnType element : String}

theorem ofType_eq_array {type inner : String} (h : CodeText.wrapped? type = some ("Vec", inner)) :
    Category.ofType type settings = .array inner := by
  simp [Category.ofType, h]

/-- A repeated parameter without a default violates nothing. -/
theorem findings_eq_nil_of_array {p : Parameter} {inner : String} (hdefault : p.default? = none)
    (h : CodeText.wrapped? p.typeText = some ("Vec", inner)) : p.findings settings = [] := by
  simp [Parameter.findings, ofType_eq_array h, Parameter.categoryFaults, hdefault]

theorem wrapped?_of_sequenceElement? {type : String} (h : CodeText.sequenceElement? type = some element) :
    CodeText.wrapped? type = some ("Vec", element) := by
  unfold CodeText.sequenceElement? at h
  split at h
  · next hw => rw [hw, Option.some.inj h]
  · simp at h

/-- The type of a node path is read as a sequence of nodes. -/
theorem wrapped?_nodePathType (hname : CodeText.isAsciiName settings.chainNodeType = true)
    (h : CodeText.IsInner element.toList) (synthesized : Bool) :
    CodeText.wrapped? (nodePathType ⟨element, synthesized⟩ settings.chainNodeType) =
      some ("Vec", settings.chainNodeType ++ "<" ++ element ++ ">") := by
  apply CodeText.wrapped?_sequenceOf
  have := h.wrap (CodeText.continuesName_of_isAsciiName hname)
  simpa using this

theorem wiring_names (t : StateThread) :
    (wiring t settings).1.name = nodePathName ∧ (wiring t settings).2.name = stateName :=
  ⟨rfl, rfl⟩

/-- Parameters that carry a state and have no default pass the rules of their category. -/
theorem wiring_findings (hname : CodeText.isAsciiName settings.chainNodeType = true) {t : StateThread}
    (h : Carries (wiring t settings).2 (some (wiring t settings).1) returnType settings element) :
    (wiring t settings).1.findings settings = [] ∧ (wiring t settings).2.findings settings = [] := by
  obtain ⟨hstate, ⟨nodePath, hnode, -, htype⟩, -⟩ := h
  obtain rfl := Option.some.inj hnode
  constructor
  · have hinner := CodeText.isInner_of_sequenceElement? hstate
    exact findings_eq_nil_of_array rfl (htype ▸ wrapped?_nodePathType hname hinner false)
  · exact findings_eq_nil_of_array rfl (wrapped?_of_sequenceElement? hstate)

/-- The function with the parameters that its state has added to it. -/
def extended (f : WorkFunction) (t : ThreadedParameters) : WorkFunction :=
  { f with parameters := t.parameters }

/-- A function that has got its state declares it. -/
theorem resolve_extended {t : ThreadedParameters} (h : resolve f settings = .ok t) :
    resolve (extended f t) settings = .ok { t with thread := { t.thread with synthesized := false } } := by
  rw [resolve_eq_ok_iff]
  left
  rcases resolve_eq_ok_iff.mp h with ⟨front, last, h⟩ | ⟨element, h⟩
  · exact ⟨front, last, h.kept.trans h.parameters, h.name, h.carries, rfl, rfl⟩
  · refine ⟨f.parameters ++ [(wiring ⟨element, true⟩ settings).1], (wiring ⟨element, true⟩ settings).2, ?_, rfl, ?_,
      rfl, rfl⟩
    · simp [extended, h.added]
    · rw [List.getLast?_concat]
      exact h.carries

/-- What a state adds to a function is not given on the command line and violates nothing. -/
theorem extended_parameters (hname : CodeText.isAsciiName settings.chainNodeType = true) {t : ThreadedParameters}
    (h : resolve f settings = .ok t) : ∃ added, t.parameters = f.parameters ++ added ∧
      (∀ p ∈ added, p.name = nodePathName ∨ p.name = stateName) ∧ ∀ p ∈ added, p.findings settings = [] := by
  rcases resolve_eq_ok_iff.mp h with ⟨front, last, h⟩ | ⟨element, h⟩
  · exact ⟨[], by simp [h.kept], by simp, by simp⟩
  · obtain ⟨hpath, hstate⟩ := wiring_findings hname h.carries
    refine ⟨_, h.added, ?_, ?_⟩
    · simp [wiring_names]
    · simp [hpath, hstate]

end StateThread

namespace WorkFunction

variable {f : WorkFunction} {directive : Directive} {settings : Settings}

open StateThread (extended)

theorem commandLineParameters_extended {t : ThreadedParameters} {added : List Parameter} {kind : DirectiveKind}
    (settings : Settings)
    (hthreads : kind.threadsState = true) (h : t.parameters = f.parameters ++ added)
    (hnames : ∀ p ∈ added, p.name = nodePathName ∨ p.name = stateName) :
    (extended f t).commandLineParameters kind settings = f.commandLineParameters kind settings := by
  have hnone : (added.map (·.bound settings)).filter (fun p => !(kind.threadsState && p.isChainWiring)) = [] := by
    rw [List.filter_eq_nil_iff]
    intro b hb
    obtain ⟨p, hp, rfl⟩ := List.mem_map.mp hb
    rcases hnames p hp with hname | hname <;> simp [hthreads, BoundParameter.isChainWiring, Parameter.bound, hname]
  simp only [commandLineParameters, extended, h, List.map_append, List.filter_append, hnone, List.append_nil]

/-- The stages that look at the declaration find as little in the extended function as in the function itself. -/
theorem allFindings_extended (hname : CodeText.isAsciiName settings.chainNodeType = true) {t : ThreadedParameters}
    (hthreads : directive.kind.threadsState = true) (hresolve : StateThread.resolve f settings = .ok t)
    (h : f.allFindings directive settings = []) : (extended f t).allFindings directive settings = [] := by
  obtain ⟨added, hadded, hnames, hfindings⟩ := StateThread.extended_parameters hname hresolve
  have hps := commandLineParameters_extended settings hthreads hadded hnames
  have hthreaded : failures ((extended f t).threadedFor directive.kind settings) = [] := by
    simp [threadedFor_of_threadsState hthreads, StateThread.resolve_extended hresolve, failures, Except.map]
  have hparameters : (extended f t).parameters.flatMap (·.findings settings) =
      f.parameters.flatMap (·.findings settings) := by
    rw [show (extended f t).parameters = f.parameters ++ added from hadded, List.flatMap_append,
      List.flatMap_eq_nil_iff.mpr hfindings, List.append_nil]
  simp only [allFindings, List.append_eq_nil_iff] at h ⊢
  obtain ⟨⟨⟨⟨husage, hcategories⟩, hlabels⟩, hgroups⟩, -⟩ := h
  refine ⟨⟨⟨⟨husage, ?_⟩, ?_⟩, ?_⟩, hthreaded⟩
  · rw [hparameters, hcategories]
  · rw [hps, hlabels]
  · rw [groupsFor, hps]
    exact hgroups

theorem assembled_congr {g function : WorkFunction} {groups : List ShadowGroup} {state : Option StateThread}
    (hname : g.name = f.name)
    (hps : g.commandLineParameters directive.kind settings = f.commandLineParameters directive.kind settings) :
    g.assembled directive settings groups function state = f.assembled directive settings groups function state := by
  simp [assembled, commandName, hname, hps]

/-- The function of a binding is bound again, to the same binding but for the note that its state was added. -/
theorem bind_bound_function {first : Binding} (hname : CodeText.isAsciiName settings.chainNodeType = true)
    (h : f.bind directive settings = .ok first) :
    first.function.bind directive settings =
      .ok { first with state := first.state.map fun thread => { thread with synthesized := false } } := by
  obtain ⟨hfound, groups, function, state, hgroups, hthreaded, rfl⟩ := bind_eq_ok_iff.mp h
  cases hthreads : directive.kind.threadsState with
  | false =>
    rw [threadedFor_of_not_threadsState hthreads] at hthreaded
    simp only [Except.ok.injEq, Prod.mk.injEq] at hthreaded
    obtain ⟨rfl, rfl⟩ := hthreaded
    exact h
  | true =>
    rw [threadedFor_of_threadsState hthreads] at hthreaded
    cases hresolve : StateThread.resolve f settings with
    | error found => simp [hresolve, Except.map] at hthreaded
    | ok t =>
      simp only [hresolve, Except.map, Except.ok.injEq, Prod.mk.injEq] at hthreaded
      obtain ⟨rfl, rfl⟩ := hthreaded
      obtain ⟨added, hadded, hnames, -⟩ := StateThread.extended_parameters hname hresolve
      have hps := commandLineParameters_extended settings hthreads hadded hnames
      have hgroups' : (extended f t).groupsFor directive settings = .ok groups := by
        rw [groupsFor, hps]
        exact hgroups
      have hthreaded' : (extended f t).threadedFor directive.kind settings =
          .ok (extended f t, some { t.thread with synthesized := false }) := by
        rw [threadedFor_of_threadsState hthreads, StateThread.resolve_extended hresolve]
        rfl
      exact bind_eq_ok_iff.mpr ⟨allFindings_extended hname hthreads hresolve hfound, groups, _, _, hgroups',
        hthreaded', assembled_congr rfl hps⟩

/-- A command action that returns a sequence of maps gets the state for them, and declares it when it is bound again. -/
theorem bind_bound_function_of_maps :
    let f : WorkFunction :=
      ⟨"build", "", "", false, false, [⟨"v__verbose", "verbose", "Flag", none⟩], "Vec<Map<K,V>>"⟩
    let directive : Directive := { kind := .commandAction, shadowGroups := [.literal "verbose"] }
    ∃ first, f.bind directive {} = .ok first ∧ first.state = some ⟨"Map<K,V>", true⟩ ∧
      first.function.bind directive {} = .ok { first with state := some ⟨"Map<K,V>", false⟩ } := by
  intro f directive
  have hstate : (f.bind directive {}).toOption.map (·.state) = some (some ⟨"Map<K,V>", true⟩) := by
    decide +kernel
  cases hfirst : f.bind directive {} with
  | error found => simp [hfirst, Except.toOption] at hstate
  | ok first =>
    have hsecond := bind_bound_function (by decide) hfirst
    simp only [hfirst, Except.toOption, Option.map_some, Option.some.injEq] at hstate
    rw [hstate] at hsecond
    exact ⟨first, rfl, hstate, hsecond⟩

end WorkFunction

end CommandBinding
