import CommandBinding.Proofs.ExpandedFunctions
import CommandBinding.Proofs.PeerStatements

/-!
The call of the work function. It has an argument for each parameter of the function, in their order: first the locals of
the parameters that are given on the command line, and then, if an action declares its state, the two parameters of the
peer that carry it. A local is bound by one statement only if its parameter is not named like a setup statement.
-/
namespace CommandBinding

open Source

theorem exists_append_of_nodup_map {α β : Type} {g : α → β} {xs : List α} {x : α} (h : (xs.map g).Nodup) (hx : x ∈ xs) :
    ∃ before after, xs = before ++ x :: after ∧ ∀ y ∈ before ++ after, g y ≠ g x := by
  obtain ⟨before, after, rfl⟩ := List.append_of_mem hx
  rw [List.map_append, List.map_cons, List.nodup_middle, List.nodup_cons, ← List.map_append] at h
  refine ⟨before, after, rfl, fun y hy heq => h.1 ?_⟩
  exact heq ▸ List.mem_map_of_mem hy

theorem filter_eq_singleton_of_nodup_map {α β : Type} [DecidableEq β] {g : α → β} {xs : List α} {x : α}
    (h : (xs.map g).Nodup) (hx : x ∈ xs) : xs.filter (g · = g x) = [x] := by
  obtain ⟨before, after, rfl, hothers⟩ := exists_append_of_nodup_map h hx
  have hbefore : before.filter (g · = g x) = [] :=
    List.filter_eq_nil_iff.mpr fun y hy => by simpa using hothers y (List.mem_append_left after hy)
  have hafter : after.filter (g · = g x) = [] :=
    List.filter_eq_nil_iff.mpr fun y hy => by simpa using hothers y (List.mem_append_right before hy)
  rw [List.filter_append, List.filter_cons, if_pos (decide_eq_true rfl), hbefore, hafter]
  rfl

theorem map_eq_of_forall₂ {α β γ : Type} {R : α → β → Prop} {g : α → γ} {k : β → γ} {xs : List α} {ys : List β}
    (h : List.Forall₂ R xs ys) (heq : ∀ x ∈ xs, ∀ y, R x y → k y = g x) : ys.map k = xs.map g := by
  induction h with
  | nil => rfl
  | @cons x y xs ys hxy _ ih =>
    have hrest := ih fun x' hx' => heq x' (List.mem_cons_of_mem _ hx')
    rw [List.map_cons, List.map_cons, heq x (List.mem_cons_self ..) y hxy, hrest]

namespace Peer

variable {f : FunctionItem} {b : Binding} {peers : List Peer} {peer : Peer} {reading : ArgumentReading} {call : WorkCall}

theorem plain_of_nameOf {name again : Name} (h : nameOf name.plain = .ok again) : again.plain = name.plain := by
  obtain ⟨other, hother, hplain⟩ := FunctionItem.nameOf_plain name
  obtain rfl := Except.ok.inj (h.symm.trans hother)
  exact hplain

theorem plain_of_mapM_nameOf {texts : List String} {names : List Name} (h : texts.mapM nameOf = .ok names)
    (hnames : ∀ text ∈ texts, ∃ name : Name, text = name.plain) : names.map Name.plain = texts := by
  have hplain : names.map Name.plain = texts.map id := by
    refine map_eq_of_forall₂ (mapM_eq_ok_iff.mp h) fun text htext again hagain => ?_
    obtain ⟨name, rfl⟩ := hnames text htext
    exact plain_of_nameOf hagain
  rw [hplain, List.map_id]

theorem plain_locals (h : List.Forall₂ (fun p l => localOf p = .ok l) b.parameters reading.locals)
    (hnames : ∀ p ∈ b.parameters, ∃ name : Name, p.name = name.plain) :
    reading.locals.map (·.name.plain) = b.parameters.map (·.name) := by
  refine map_eq_of_forall₂ h fun p hp l hl => ?_
  obtain ⟨name, hname⟩ := hnames p hp
  have hagain := (localOf_eq_ok_iff.mp hl).1
  rw [hname] at hagain ⊢
  exact plain_of_nameOf hagain

/-- Every parameter of a binding has its local. -/
theorem exists_local {p : BoundParameter}
    (h : List.Forall₂ (fun p l => localOf p = .ok l) b.parameters reading.locals)
    (hnames : ∀ p ∈ b.parameters, ∃ name : Name, p.name = name.plain) (hp : p ∈ b.parameters) :
    ∃ l ∈ reading.locals, l.name.plain = p.name ∧ sourceOf p = .ok l.source := by
  have hmem : localOf p ∈ reading.locals.map .ok := forall₂_eq_ok_iff.mp h ▸ List.mem_map_of_mem hp
  obtain ⟨l, hl, hlocal⟩ := List.mem_map.mp hmem
  obtain ⟨hname, hsource⟩ := localOf_eq_ok_iff.mp hlocal.symm
  obtain ⟨name, hplain⟩ := hnames p hp
  rw [hplain] at hname ⊢
  exact ⟨l, hl, plain_of_nameOf hname, hsource⟩

/-- The arguments of the call are the parameters of the binding and the names behind them. -/
theorem plain_arguments (h : Serves f b peers peer reading call)
    (hnames : ∀ p ∈ b.parameters, ∃ name : Name, p.name = name.plain) :
    call.arguments.map Name.plain = b.parameters.map (·.name) ++ namesBehind b := by
  obtain ⟨more, hmore, harguments⟩ := h.arguments
  have hwiring : ∀ text ∈ namesBehind b, ∃ name : Name, text = name.plain := by
    intro text htext
    have htext : text = nodePathName ∨ text = stateName := by
      unfold namesBehind at htext
      split at htext
      · exact mem_wiringNames _ text htext
      · cases htext
    rcases htext with rfl | rfl
    · exact ⟨⟨nodePathName, by decide +kernel⟩, by decide +kernel⟩
    · exact ⟨⟨stateName, by decide +kernel⟩, by decide +kernel⟩
  have hlocals := plain_locals h.locals hnames
  rw [harguments, List.map_append, List.map_map, plain_of_mapM_nameOf hmore hwiring]
  exact congrArg (· ++ namesBehind b) hlocals

theorem key_of_sourceOf {p : BoundParameter} {source : ValueSource} (h : sourceOf p = .ok source)
    (hmeta : p.category ≠ .metaFlag) : source.key? = some p.name := by
  obtain ⟨name, label, category, default?⟩ := p
  cases category with
  | value type =>
    cases default? with
    | none =>
      obtain rfl := Except.ok.inj h
      rfl
    | some text =>
      simp only [sourceOf, bind_eq_ok_iff, pure, Except.pure, Except.ok.injEq] at h
      obtain ⟨tokens, -, rfl⟩ := h
      rfl
  | metaFlag => exact absurd rfl hmeta
  | _ =>
    obtain rfl := Except.ok.inj h
    rfl

def setupNames : DirectiveKind → List String
  | .mainFunction => ["__args", "__config", "__values"]
  | .callFunction | .commandAction => ["__config", "__values"]

theorem unraw_setup : ∀ name ∈ setupNames .mainFunction, unraw name = name := by decide +kernel

theorem exists_setup_of_statements (before : List LetStatement) {names : List String}
    (h : peer.statements = before ++ reading.statements peer.frame)
    (hnames : ∀ name, name ∈ names ↔ (∃ s ∈ before, s.binds name = true) ∨ name = "__config" ∨ name = "__values") :
    ∃ setup, peer.statements = setup ++ [reading.valuesStatement peer.frame] ++ reading.locals.map Local.statement ∧
      ∀ name, (∃ s ∈ setup ++ [reading.valuesStatement peer.frame], s.binds name = true) ↔ name ∈ names := by
  have hconfig : unraw "__config" = "__config" := unraw_setup _ (by decide)
  have hvalues : unraw "__values" = "__values" := unraw_setup _ (by decide)
  refine ⟨before ++ [reading.configurationStatement peer.frame], ?_, fun name => ?_⟩
  · simp only [h, ArgumentReading.statements, List.append_assoc, List.cons_append, List.nil_append]
  · rw [hnames]
    simp [ArgumentReading.configurationStatement, ArgumentReading.valuesStatement, LetStatement.binds, hconfig, hvalues,
      or_and_right, exists_or]

/-- A peer runs its setup statements, of which the last one reads the arguments, and then binds its locals. -/
theorem exists_setup {kind : DirectiveKind} (h : IsCaller kind reading call peer.role) :
    ∃ setup, peer.statements = setup ++ [reading.valuesStatement peer.frame] ++ reading.locals.map Local.statement ∧
      ∀ name, (∃ s ∈ setup ++ [reading.valuesStatement peer.frame], s.binds name = true) ↔ name ∈ setupNames kind := by
  cases kind with
  | mainFunction =>
    have hrole : peer.role = .main reading call := h
    have hargs : unraw "__args" = "__args" := unraw_setup _ (by decide)
    refine exists_setup_of_statements environmentStatements ?_ fun name => ?_
    · simp only [statements, hrole]
    · simp [environmentStatements, LetStatement.binds, hargs, setupNames]
  | callFunction =>
    obtain ⟨successType, hrole⟩ := h
    refine exists_setup_of_statements [] ?_ fun name => ?_
    · simp only [statements, hrole, List.nil_append]
    · simp [setupNames]
  | commandAction =>
    obtain ⟨state, hrole⟩ := h
    refine exists_setup_of_statements [] ?_ fun name => ?_
    · simp only [statements, hrole, List.nil_append]
    · simp [setupNames]

/-- Whether one statement in front of the call binds an identifier, and what is read for it is read from the arguments. -/
def BindsOnce (peer : Peer) (reading : ArgumentReading) (identifier : String) : Prop :=
  ∃ l ∈ reading.locals, l.name.plain = identifier ∧ ∃ before after,
    peer.statements = before ++ l.statement :: after ∧ (∀ s ∈ before ++ after, s.binds identifier = false) ∧
      (l.source.key? ≠ none → LetStatement.last? before "__values" = some (reading.valuesStatement peer.frame))

theorem length_filter_of_bindsOnce {identifier : String} (h : BindsOnce peer reading identifier) :
    (peer.statements.filter (·.binds identifier)).length = 1 := by
  obtain ⟨l, -, hl, before, after, hstatements, hothers, -⟩ := h
  have hbefore : before.filter (·.binds identifier) = [] :=
    List.filter_eq_nil_iff.mpr fun s hs => by simp [hothers s (List.mem_append_left after hs)]
  have hafter : after.filter (·.binds identifier) = [] :=
    List.filter_eq_nil_iff.mpr fun s hs => by simp [hothers s (List.mem_append_right before hs)]
  have hown : l.statement.binds identifier = true := by simp [Local.binds_statement, hl]
  rw [hstatements, List.filter_append, List.filter_cons, if_pos hown, hbefore, hafter]
  rfl

/-- Two statements bind a local that is named like a setup statement. -/
theorem not_bindsOnce_of_setupName {kind : DirectiveKind} (h : IsCaller kind reading call peer.role) {l : Local}
    (hl : l ∈ reading.locals) (hname : l.name.plain ∈ setupNames kind) : ¬BindsOnce peer reading l.name.plain := by
  intro honce
  obtain ⟨setup, hstatements, hsetup⟩ := exists_setup h
  have hlength := length_filter_of_bindsOnce honce
  have hfirst : 0 < ((setup ++ [reading.valuesStatement peer.frame]).filter (·.binds l.name.plain)).length := by
    obtain ⟨s, hs, hbinds⟩ := (hsetup l.name.plain).mpr hname
    exact List.length_pos_of_mem (List.mem_filter.mpr ⟨hs, hbinds⟩)
  have hsecond : 0 < ((reading.locals.map Local.statement).filter (·.binds l.name.plain)).length := by
    have hbinds : l.statement.binds l.name.plain = true := by simp [Local.binds_statement]
    exact List.length_pos_of_mem (List.mem_filter.mpr ⟨List.mem_map_of_mem hl, hbinds⟩)
  rw [hstatements, List.filter_append, List.length_append] at hlength
  omega

/-- What stands last before some locals is what an identifier stands for behind them, if none of them has that name. -/
theorem last?_append_locals {before : List LetStatement} {s : LetStatement} {locals : List Local} {identifier : String}
    (hs : s.binds identifier = true) (hfree : ∀ l ∈ locals, l.name.plain ≠ identifier) :
    LetStatement.last? (before ++ [s] ++ locals.map Local.statement) identifier = some s := by
  have hnone : (locals.map Local.statement).filter (·.binds identifier) = [] := by
    rw [List.filter_eq_nil_iff]
    intro statement hstatement
    obtain ⟨l, hl, rfl⟩ := List.mem_map.mp hstatement
    simpa [Local.binds_statement] using (hfree l hl).symm
  rw [LetStatement.last?, List.filter_append, hnone, List.append_nil, List.filter_append, List.filter_cons, if_pos hs,
    List.filter_nil, List.getLast?_concat]

theorem values_mem_setupNames (kind : DirectiveKind) : "__values" ∈ setupNames kind := by
  cases kind <;> decide

/-- A local is bound once if no two locals have one name, and none is named like a setup statement. -/
theorem bindsOnce_of_free {kind : DirectiveKind} (h : IsCaller kind reading call peer.role)
    (hnodup : (reading.locals.map (·.name.plain)).Nodup) (hfree : ∀ l ∈ reading.locals, l.name.plain ∉ setupNames kind)
    {l : Local} (hl : l ∈ reading.locals) : BindsOnce peer reading l.name.plain := by
  obtain ⟨setup, hstatements, hsetup⟩ := exists_setup h
  obtain ⟨front, behind, hlocals, hothers⟩ := exists_append_of_nodup_map hnodup hl
  refine ⟨l, hl, rfl, setup ++ [reading.valuesStatement peer.frame] ++ front.map Local.statement,
    behind.map Local.statement, ?_, ?_, fun _ => ?_⟩
  · rw [hstatements, hlocals, List.map_append, List.map_cons]
    simp only [List.append_assoc, List.cons_append, List.nil_append]
  · intro s hs
    have hs : s ∈ setup ++ [reading.valuesStatement peer.frame] ∨ ∃ other ∈ front ++ behind, other.statement = s := by
      simpa [or_assoc, and_or_left, or_and_right, exists_or] using hs
    rcases hs with hs | ⟨other, hother, rfl⟩
    · cases hbinds : s.binds l.name.plain with
      | false => rfl
      | true => exact absurd ((hsetup _).mp ⟨s, hs, hbinds⟩) (hfree l hl)
    · simpa [Local.binds_statement] using (hothers other hother).symm
  · have hvalues : (reading.valuesStatement peer.frame).binds "__values" = true := by
      simp [ArgumentReading.valuesStatement, LetStatement.binds, unraw_setup "__values" (by decide)]
    refine last?_append_locals hvalues fun other hother heq => ?_
    have hmem : other ∈ reading.locals := hlocals ▸ List.mem_append_left _ hother
    exact hfree other hmem (heq ▸ values_mem_setupNames kind)

/-- How the peer that calls a function comes by one of its parameters: it takes the parameter itself, or reads it. -/
structure Provides (peer : Peer) (reading : ArgumentReading) (kind : DirectiveKind) (p : Parameter) : Prop where
  wired : ¬p.IsBound kind →
    (∃ own ∈ peer.parameters, own.name = p.name) ∧ ∀ s ∈ peer.statements, s.binds p.name = false
  bound : p.IsBound kind → ∃ l, reading.locals.filter (·.name.plain = p.name) = [l] ∧
    (p.category {} ≠ .metaFlag → l.source.key? = some p.name)
  row : p.IsBound kind → ∃ row ∈ reading.labels, row.parameter = p.name

/-- The parameters that carry a state are those of the peer. -/
theorem wired_of_not_isBound {kind : DirectiveKind} {p : Parameter} (h : IsCaller kind reading call peer.role)
    (hbound : ∀ l ∈ reading.locals, kind = .commandAction → l.name.plain ≠ "node_path" ∧ l.name.plain ≠ "state")
    (hp : ¬p.IsBound kind) :
    (∃ own ∈ peer.parameters, own.name = p.name) ∧ ∀ s ∈ peer.statements, s.binds p.name = false := by
  obtain ⟨rfl, hname⟩ : kind = .commandAction ∧ (p.name = "node_path" ∨ p.name = "state") := by
    simpa only [Parameter.IsBound, Classical.not_imp, not_and_or, ne_eq, Classical.not_not] using hp
  obtain ⟨setup, hstatements, hsetup⟩ := exists_setup h
  obtain ⟨state, hrole⟩ := h
  constructor
  · rcases hname with hname | hname <;> simp [parameters, hrole, hname, nodePathName, stateName]
  · intro s hs
    rw [hstatements, List.mem_append] at hs
    rcases hs with hs | hs
    · cases hbinds : s.binds p.name with
      | false => rfl
      | true =>
        have hmem := (hsetup p.name).mp ⟨s, hs, hbinds⟩
        rcases hname with hname | hname <;> simp [hname, setupNames] at hmem
    · obtain ⟨l, hl, rfl⟩ := List.mem_map.mp hs
      obtain ⟨hpath, hstate⟩ := hbound l hl rfl
      rw [Local.binds_statement, beq_eq_false_iff_ne]
      rcases hname with hname | hname
      · exact hname ▸ hpath.symm
      · exact hname ▸ hstate.symm

end Peer

namespace WorkFunction

variable {f : WorkFunction} {directive : Directive} {settings : Settings} {b : Binding}

/-- The parameters in front of a declared state are those on the command line. -/
theorem names_of_declares {t : ThreadedParameters} {front : List Parameter} {last : Parameter}
    (h : StateThread.Declares f settings t front last) (hnodup : (f.parameters.map (·.name)).Nodup) :
    f.parameters.map (·.name) = (f.boundParameters .commandAction).map (·.name) ++ [nodePathName, stateName] := by
  obtain ⟨nodePath, hlast, hname, -⟩ := h.carries.node_path
  obtain ⟨before, rfl⟩ := List.getLast?_eq_some_iff.mp hlast
  have hparameters : f.parameters = before ++ [nodePath, last] := by
    rw [h.parameters, List.append_assoc]
    rfl
  have hstateName := h.name
  -- The names are distinct, so no parameter in front is named like the two that are left out.
  have hfree : ∀ p ∈ before, p.name ≠ nodePathName ∧ p.name ≠ stateName := by
    intro p hp
    rw [hparameters, List.map_append, List.nodup_append] at hnodup
    have hne := hnodup.2.2 p.name (List.mem_map_of_mem hp)
    exact ⟨hne nodePathName (by simp [hname]), hne stateName (by simp [hstateName])⟩
  have hkept : before.filter (·.IsBound .commandAction) = before :=
    List.filter_eq_self.mpr fun p hp => decide_eq_true fun _ => hfree p hp
  have hleft : [nodePath, last].filter (·.IsBound .commandAction) = [] := by
    simp [Parameter.IsBound, hname, hstateName, nodePathName, stateName]
  rw [boundParameters, hparameters, List.filter_append, hkept, hleft, List.append_nil, List.map_append]
  simp only [List.map_cons, List.map_nil, hname, hstateName]

/-- The parameters of a function are those on the command line, and then those that it has declared for its state. -/
theorem names_eq_bound_append (h : f.bind directive settings = .ok b) (hnodup : (f.parameters.map (·.name)).Nodup) :
    f.parameters.map (·.name) = (f.boundParameters directive.kind).map (·.name) ++ Peer.namesBehind b := by
  by_cases hkind : directive.kind = .commandAction
  · obtain ⟨t, hresolve, hstate⟩ := state_of_bind h hkind
    have hbehind : Peer.namesBehind b = Peer.wiringNames t.thread := by
      simp only [Peer.namesBehind, kind_of_bind h, hkind, hstate]
    rcases StateThread.resolve_eq_ok_iff.mp hresolve with ⟨front, last, hdeclares⟩ | ⟨element, hadds⟩
    · rw [hbehind, Peer.wiringNames, hdeclares.declared, hkind]
      exact names_of_declares hdeclares hnodup
    · have hbound : f.boundParameters directive.kind = f.parameters :=
        boundParameters_eq_self fun p hp _ => ⟨hadds.no_node_path p hp, hadds.no_state p hp⟩
      rw [hbound, hbehind, Peer.wiringNames, hadds.synthesized, if_pos rfl, List.append_nil]
  · have hbound : f.boundParameters directive.kind = f.parameters :=
      boundParameters_eq_self fun p _ hcommand => absurd hcommand hkind
    have hbehind : Peer.namesBehind b = [] := by
      unfold Peer.namesBehind
      split
      · next hcommand _ => exact absurd ((kind_of_bind h).symm.trans hcommand) hkind
      · rfl
    rw [hbound, hbehind, List.append_nil]

end WorkFunction

section Served

variable {f : WorkFunction} {g : FunctionItem} {directive : Directive} {b : Binding} {peers : List Peer} {peer : Peer}
  {reading : ArgumentReading} {call : WorkCall}

namespace WorkFunction

theorem names_of_bind (hbind : f.bind directive {} = .ok b) :
    b.parameters.map (·.name) = (f.boundParameters directive.kind).map (·.name) := by
  rw [parameters_of_bind hbind, List.map_map]
  rfl

theorem mem_parameters_of_bind (hbind : f.bind directive {} = .ok b) {p : Parameter} (hp : p ∈ f.parameters)
    (hbound : p.IsBound directive.kind) : p.bound {} ∈ b.parameters := by
  rw [parameters_of_bind hbind]
  exact List.mem_map_of_mem (List.mem_filter.mpr ⟨hp, decide_eq_true hbound⟩)

/-- The names of a binding are names of the source if those of its function are. -/
theorem exists_names_of_bind (hbind : f.bind directive {} = .ok b)
    (hnames : ∀ p ∈ f.parameters, ∃ name : Name, p.name = name.plain) :
    ∀ p ∈ b.parameters, ∃ name : Name, p.name = name.plain := by
  intro p hp
  rw [parameters_of_bind hbind] at hp
  obtain ⟨q, hq, rfl⟩ := List.mem_map.mp hp
  exact hnames q (List.mem_filter.mp hq).1

end WorkFunction

namespace Peer

variable (hbind : f.bind directive {} = .ok b) (h : Serves g b peers peer reading call)
  (hnames : ∀ p ∈ f.parameters, ∃ name : Name, p.name = name.plain) (hnodup : (f.parameters.map (·.name)).Nodup)

include hbind h hnames

theorem locals_of_bind : reading.locals.map (·.name.plain) = (f.boundParameters directive.kind).map (·.name) := by
  have hlocals := plain_locals h.locals (WorkFunction.exists_names_of_bind hbind hnames)
  exact hlocals.trans (WorkFunction.names_of_bind hbind)

theorem isBound_of_local {l : Local} (hl : l ∈ reading.locals) :
    ∃ p ∈ f.boundParameters directive.kind, p.name = l.name.plain := by
  have hmem : l.name.plain ∈ (f.boundParameters directive.kind).map (·.name) :=
    locals_of_bind hbind h hnames ▸ List.mem_map_of_mem hl
  exact List.mem_map.mp hmem

theorem exists_local_of_bound {p : Parameter} (hp : p ∈ f.parameters) (hbound : p.IsBound directive.kind) :
    ∃ l ∈ reading.locals, l.name.plain = p.name ∧ sourceOf (p.bound {}) = .ok l.source :=
  exists_local h.locals (WorkFunction.exists_names_of_bind hbind hnames)
    (WorkFunction.mem_parameters_of_bind hbind hp hbound)

include hnodup

theorem nodup_locals : (reading.locals.map (·.name.plain)).Nodup := by
  rw [locals_of_bind hbind h hnames]
  exact hnodup.sublist (List.filter_sublist.map _)

theorem arguments_of_bind : call.arguments.map Name.plain = f.parameters.map (·.name) := by
  rw [plain_arguments h (WorkFunction.exists_names_of_bind hbind hnames), WorkFunction.names_of_bind hbind,
    WorkFunction.names_eq_bound_append hbind hnodup]

theorem provides_of_bind {p : Parameter} (hp : p ∈ f.parameters) : peer.Provides reading directive.kind p := by
  have hrole : IsCaller directive.kind reading call peer.role := WorkFunction.kind_of_bind hbind ▸ h.role
  refine ⟨wired_of_not_isBound hrole fun l hl hcommand => ?_, fun hbound => ?_, fun hbound => ?_⟩
  · obtain ⟨q, hq, hname⟩ := isBound_of_local hbind h hnames hl
    rw [← hname]
    exact of_decide_eq_true (List.mem_filter.mp hq).2 hcommand
  · obtain ⟨l, hl, hname, hsource⟩ := exists_local_of_bound hbind h hnames hp hbound
    have hone := filter_eq_singleton_of_nodup_map (nodup_locals hbind h hnames hnodup) hl
    rw [hname] at hone
    exact ⟨l, hone, fun hmeta => key_of_sourceOf hsource hmeta⟩
  · have hmem := WorkFunction.mem_parameters_of_bind hbind hp hbound
    rw [h.labels, WorkFunction.labels_of_bind hbind]
    exact ⟨_, List.mem_map_of_mem hmem, rfl⟩

/-- The parameters on the command line are bound once exactly if none is named like a setup statement. -/
theorem bindsOnce_iff_of_bind : (∀ p ∈ f.boundParameters directive.kind, peer.BindsOnce reading p.name) ↔
    ∀ p ∈ f.boundParameters directive.kind, p.name ∉ setupNames directive.kind := by
  have hrole : IsCaller directive.kind reading call peer.role := WorkFunction.kind_of_bind hbind ▸ h.role
  have hlocal : ∀ p ∈ f.boundParameters directive.kind, ∃ l ∈ reading.locals, l.name.plain = p.name := by
    intro p hp
    obtain ⟨hmem, hbound⟩ := List.mem_filter.mp hp
    obtain ⟨l, hl, hname, -⟩ := exists_local_of_bound hbind h hnames hmem (of_decide_eq_true hbound)
    exact ⟨l, hl, hname⟩
  constructor
  · intro honce p hp hsetup
    obtain ⟨l, hl, hname⟩ := hlocal p hp
    exact not_bindsOnce_of_setupName hrole hl (hname ▸ hsetup) (hname ▸ honce p hp)
  · intro hfree p hp
    obtain ⟨l, hl, hname⟩ := hlocal p hp
    rw [← hname]
    refine bindsOnce_of_free hrole (nodup_locals hbind h hnames hnodup) (fun other hother => ?_) hl
    obtain ⟨q, hq, hsame⟩ := isBound_of_local hbind h hnames hother
    exact hsame ▸ hfree q hq

end Peer

end Served

namespace Expansion

variable {f : FunctionItem} {kind : DirectiveKind} {arguments : List Token}

/-- The peer of an expanded function calls it with its parameters, each under its own name, and comes by each of them.
The parameters on the command line are bound once, and from what was read, exactly if none is named like a setup
statement. -/
theorem call_passes_parameters {item : List Token} {g : FunctionItem} {peers : List Peer}
    (hitem : parseFunction item = .ok f)
    (hnodup : ((f.signature.inputs.filterMap Input.name?).map Name.plain).Nodup)
    (hexpanded : ofItem kind arguments item = .expanded g peers) :
    ∃ peer reading call, peer ∈ peers ∧ (∀ other ∈ peers, other.role.workCall? ≠ none → other = peer) ∧
      Peer.IsCaller kind reading call peer.role ∧ peer.Calls call ∧ call.function = f.signature.name ∧
      call.arguments.map (fun a => some a.plain) = f.signature.inputs.map (fun input => input.name?.map Name.plain) ∧
      (∀ p ∈ f.declare.1.parameters, peer.Provides reading kind p) ∧
      ((∀ p ∈ f.declare.1.boundParameters kind, peer.BindsOnce reading p.name) ↔
        ∀ p ∈ f.declare.1.boundParameters kind, p.name ∉ Peer.setupNames kind) := by
  obtain ⟨rfl, directive, b, h⟩ := (ofItem_eq_expanded_iff hitem).mp hexpanded
  obtain rfl : directive.kind = kind := kind_of_directiveOfArguments h.reads
  obtain ⟨hdeclare, hbind⟩ := FunctionItem.bind_eq_ok_iff.mp h.binds
  obtain ⟨names, hinputs, hplain⟩ := Input.exists_names (FunctionItem.inputs_declare hdeclare)
  obtain ⟨peer, reading, call, hserves⟩ := Peer.exists_serves h.generates
  have hnames := fun p hp => FunctionItem.exists_name_of_mem (p := p) hdeclare hp
  have hdistinct : (f.declare.1.parameters.map (·.name)).Nodup := by
    have hfilter : f.signature.inputs.filterMap Input.name? = names := by
      simpa [List.filterMap_map] using congrArg (List.filterMap id) hinputs
    rw [hplain, ← hfilter]
    exact hnodup
  have harguments : call.arguments.map (fun a => some a.plain) =
      f.signature.inputs.map (fun input => input.name?.map Name.plain) := by
    calc call.arguments.map (fun a => some a.plain)
      _ = (call.arguments.map Name.plain).map some := by rw [List.map_map]; rfl
      _ = (names.map Name.plain).map some := by rw [Peer.arguments_of_bind hbind hserves hnames hdistinct, hplain]
      _ = (names.map some).map (Option.map Name.plain) := by rw [List.map_map, List.map_map]; rfl
      _ = f.signature.inputs.map (fun input => input.name?.map Name.plain) := by rw [← hinputs, List.map_map]; rfl
  have hrole : Peer.IsCaller directive.kind reading call peer.role := WorkFunction.kind_of_bind hbind ▸ hserves.role
  exact ⟨peer, reading, call, hserves.mem, hserves.only, hrole, Peer.calls_of_workCall hrole.reading?.2,
    hserves.function, harguments, fun p hp => Peer.provides_of_bind hbind hserves hnames hdistinct hp,
    Peer.bindsOnce_iff_of_bind hbind hserves hnames hdistinct⟩

/-- A function with a parameter that is named like the values of its peer. -/
def colliding : FunctionItem :=
  plainFunction [] [byteInput [] ⟨"__values", by decide +kernel⟩, byteInput [] sizeName]

/-- Its peer calls it with its parameters, but binds the values of the peer a second time. -/
theorem call_passes_colliding_parameter : ∃ g peers peer reading call,
    ofItem .callFunction [] colliding.tokens = .expanded g peers ∧ peer ∈ peers ∧
      Peer.IsCaller .callFunction reading call peer.role ∧
      call.arguments.map (fun a => some a.plain) = [some "__values", some "size"] ∧
      ¬∀ p ∈ colliding.declare.1.boundParameters .callFunction, peer.BindsOnce reading p.name := by
  have hitem : parseFunction colliding.tokens = .ok colliding := eq_ok_of_toOption (by decide +kernel)
  have hpeers : (ofItem .callFunction [] colliding.tokens).peers ≠ [] := by decide +kernel
  obtain ⟨g, hexpanded⟩ := eq_expanded_of_peers rfl hpeers
  obtain ⟨peer, reading, call, hmem, -, hrole, -, -, harguments, -, honce⟩ :=
    call_passes_parameters hitem (by decide +kernel) hexpanded
  have hinputs : colliding.signature.inputs.map (fun input => input.name?.map Name.plain) =
      [some "__values", some "size"] := by decide +kernel
  refine ⟨g, _, peer, reading, call, hexpanded, hmem, hrole, harguments.trans hinputs, fun hall => ?_⟩
  have hparameter : ⟨"__values", "__values", "u8", none⟩ ∈ colliding.declare.1.boundParameters .callFunction := by
    decide +kernel
  exact honce.mp hall _ hparameter (by decide)

end Expansion

end CommandBinding
