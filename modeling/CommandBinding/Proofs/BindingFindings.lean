import CommandBinding.Binding
import CommandBinding.Proofs.StateWiring

/-!
What `WorkFunction.bind` answers. All findings of all stages make one list, and there is a binding exactly when this
list is empty: no stage fails without a finding.
-/
namespace CommandBinding.WorkFunction

variable {f : WorkFunction} {kind : DirectiveKind} {directive : Directive} {settings : Settings}

/-- The shadow groups of a directive, over the names of the command-line parameters. -/
def groupsFor (f : WorkFunction) (directive : Directive) (settings : Settings) : Except Finding (List ShadowGroup) :=
  ShadowGroup.resolve directive.shadowGroups ((f.commandLineParameters directive.kind settings).map (·.name))

/-- The findings of all stages, in the order in which they are reported. -/
def allFindings (f : WorkFunction) (directive : Directive) (settings : Settings) : List Finding :=
  f.usageFindings directive.kind ++ f.parameters.flatMap (·.findings settings) ++
    (AliasTable.build (f.commandLineParameters directive.kind settings) settings.labelSeparator).2 ++
    groupFindings (f.groupsFor directive settings) ++ failures (f.threadedFor directive.kind settings)

theorem threadedFor_of_threadsState (h : kind.threadsState = true) :
    f.threadedFor kind settings =
      (StateThread.resolve f settings).map fun t => ({ f with parameters := t.parameters }, some t.thread) := by
  simp [threadedFor, h]

theorem threadedFor_of_not_threadsState (h : kind.threadsState = false) :
    f.threadedFor kind settings = .ok (f, none) := by
  simp [threadedFor, h]

theorem nodup_of_threadedFor_eq_error {found : List Finding} (h : f.threadedFor kind settings = .error found) :
    found ≠ [] ∧ (found.map (·.fault)).Nodup := by
  cases hk : kind.threadsState with
  | false => simp [threadedFor_of_not_threadsState hk] at h
  | true =>
    rw [threadedFor_of_threadsState hk] at h
    cases hr : StateThread.resolve f settings with
    | ok t => simp [hr, Except.map] at h
    | error more =>
      simp only [hr, Except.map, Except.error.injEq] at h
      exact h ▸ StateThread.nodup_of_resolve_eq_error hr

/-- A stage that has no findings has succeeded. -/
theorem failures_threadedFor_eq_nil_iff :
    failures (f.threadedFor kind settings) = [] ↔ ∃ result, f.threadedFor kind settings = .ok result := by
  cases h : f.threadedFor kind settings with
  | ok result => simp [failures]
  | error found => simpa [failures] using (nodup_of_threadedFor_eq_error h).1

theorem groupFindings_eq_nil_iff {groups : Except Finding (List ShadowGroup)} :
    groupFindings groups = [] ↔ ∃ resolved, groups = .ok resolved := by
  cases groups <;> simp [groupFindings]

def assembled (f : WorkFunction) (directive : Directive) (settings : Settings) (groups : List ShadowGroup)
    (function : WorkFunction) (state : Option StateThread) : Binding :=
  let ps := f.commandLineParameters directive.kind settings
  ⟨directive.kind, f.commandName, function, ps,
    .assemble ps groups (AliasTable.ofParameters ps settings.labelSeparator), state⟩

theorem bind_eq_match : f.bind directive settings =
    match f.groupsFor directive settings, f.threadedFor directive.kind settings with
    | .ok groups, .ok (function, state) =>
      unlessFound (f.allFindings directive settings) (f.assembled directive settings groups function state)
    | _, _ => .error (f.allFindings directive settings) := rfl

/-- A stage without findings has given its result, so where there are none at all there is a binding. -/
theorem stages_of_allFindings_eq_nil (h : f.allFindings directive settings = []) :
    ∃ groups function state, f.groupsFor directive settings = .ok groups ∧
      f.threadedFor directive.kind settings = .ok (function, state) := by
  simp only [allFindings, List.append_eq_nil_iff] at h
  obtain ⟨groups, hgroups⟩ := groupFindings_eq_nil_iff.mp h.1.2
  obtain ⟨⟨function, state⟩, hthreaded⟩ := failures_threadedFor_eq_nil_iff.mp h.2
  exact ⟨groups, function, state, hgroups, hthreaded⟩

/-- A binding is made exactly when there are no findings. -/
theorem bind_eq_ok_iff {b : Binding} :
    f.bind directive settings = .ok b ↔ f.allFindings directive settings = [] ∧
      ∃ groups function state, f.groupsFor directive settings = .ok groups ∧
        f.threadedFor directive.kind settings = .ok (function, state) ∧
        f.assembled directive settings groups function state = b := by
  rw [bind_eq_match]
  cases hg : f.groupsFor directive settings with
  | error found => simp
  | ok groups =>
    cases ht : f.threadedFor directive.kind settings with
    | error found => simp
    | ok threaded =>
      obtain ⟨function, state⟩ := threaded
      simp [unlessFound_eq_ok_iff]

/-- A failed binding answers with all findings. -/
theorem bind_eq_error_iff {found : List Finding} :
    f.bind directive settings = .error found ↔
      f.allFindings directive settings ≠ [] ∧ f.allFindings directive settings = found := by
  by_cases h : f.allFindings directive settings = []
  · obtain ⟨groups, function, state, hgroups, hthreaded⟩ := stages_of_allFindings_eq_nil h
    have hok := bind_eq_ok_iff.mpr ⟨h, groups, function, state, hgroups, hthreaded, rfl⟩
    simp [hok, h]
  · rw [bind_eq_match]
    split
    · exact unlessFound_eq_error_iff
    · simp [h]

theorem bind_eq_ok_of_allFindings_eq_nil (h : f.allFindings directive settings = []) :
    ∃ b, f.bind directive settings = .ok b := by
  obtain ⟨groups, function, state, hgroups, hthreaded⟩ := stages_of_allFindings_eq_nil h
  exact ⟨_, bind_eq_ok_iff.mpr ⟨h, groups, function, state, hgroups, hthreaded, rfl⟩⟩

end CommandBinding.WorkFunction
