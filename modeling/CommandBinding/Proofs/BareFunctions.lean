import CommandBinding.Proofs.ExpandedFunctions

/-!
Binding a function with its parameters bare. The names and the types of the parameters stay, and with them their
categories, the words that shadow groups may use and the state. The labels and the defaults go, so a bare function is
bound to the same tables only if the names give the aliases that the labels gave, and no default is lost that a peer
would write.
-/
namespace CommandBinding

open Source

namespace Aliases

theorem exists_mem_present_of_mem_head {head : List Char} {long : Option String} {c : Char} (h : c ∈ head) :
    ∃ text ∈ ({ ofHead head with long } : Aliases).present, c ∈ text.toList := by
  match head with
  | [] => cases h
  | [d] => exact ⟨_, mem_present.mpr (.inl rfl), by simpa using h⟩
  | d :: e :: rest => exact ⟨_, mem_present.mpr (.inr (.inl rfl)), by simpa using h⟩

/-- All characters of a label but underscores stand in its aliases. -/
theorem exists_mem_present_of_mem_label {label : String} {c : Char} (hlabel : label ≠ "_") (hc : c ∈ label.toList)
    (hne : c ≠ '_') : ∃ text ∈ (ofLabel label "__").present, c ∈ text.toList := by
  rw [ofLabel, if_neg (show label ≠ positionalLabel from hlabel)]
  split
  · next head tail hcut =>
    have happend := eq_append_of_cutAtFirst hcut
    have hmem : c ∈ head ∨ c ∈ tail := by
      rw [happend] at hc
      simpa [hne] using hc
    rcases hmem with hhead | htail
    · exact exists_mem_present_of_mem_head hhead
    · have hlong : nonEmpty tail = some (String.ofList tail) := by
        rw [nonEmpty, if_neg (by simpa using List.ne_nil_of_mem htail)]
      exact ⟨String.ofList tail, mem_present.mpr (.inr (.inr hlong)), by simpa using htail⟩
  · exact exists_mem_present_of_mem_head hc

/-- A text that gives the aliases of a valid label is a valid label. -/
theorem plain_of_ofLabel_eq {label other : String} (h : ofLabel label "__" = ofLabel other "__") (hother : other ≠ "_")
    (hlabel : ∀ c ∈ label.toList, c.isAlphanum ∨ c = '_') : ∀ c ∈ other.toList, c.isAlphanum ∨ c = '_' := by
  intro c hc
  by_cases hne : c = '_'
  · exact Or.inr hne
  -- Any other character stands in an alias, and the aliases are also those of the valid label.
  · obtain ⟨text, htext, hmem⟩ := exists_mem_present_of_mem_label hother hc hne
    rw [← h] at htext
    exact hlabel c (mem_label_of_mem_present htext hmem)

end Aliases

variable {f : WorkFunction} {directive : Directive} {settings : Settings} {kind : DirectiveKind} {b : Binding}

namespace StateThread

theorem carries_bare {front : List Parameter} {last : Parameter} {returnType element : String}
    (h : Carries last front.getLast? returnType settings element) :
    Carries last.bare (front.map Parameter.bare).getLast? returnType settings element := by
  obtain ⟨nodePath, hlast, hname, htype⟩ := h.node_path
  have hbare : (front.map Parameter.bare).getLast? = some nodePath.bare := by
    rw [List.getLast?_map, hlast]
    rfl
  exact ⟨h.element_of_state, ⟨nodePath.bare, hbare, hname, htype⟩, h.returned⟩

/-- A state is read off names and types. -/
theorem resolve_bare {t : ThreadedParameters} (h : resolve f settings = .ok t) :
    ∃ t', resolve f.bare settings = .ok t' ∧ t'.thread = t.thread := by
  rcases resolve_eq_ok_iff.mp h with ⟨front, last, h⟩ | ⟨element, h⟩
  · have hparameters : f.bare.parameters = front.map Parameter.bare ++ [last.bare] := by
      rw [WorkFunction.bare, h.parameters, List.map_append]
      rfl
    refine ⟨⟨f.bare.parameters, t.thread⟩, resolve_eq_ok_iff.mpr (.inl ⟨front.map Parameter.bare, last.bare, ?_⟩), rfl⟩
    exact ⟨hparameters, h.name, carries_bare h.carries, rfl, h.declared⟩
  · have hnames : ∀ (name : String), (∀ p ∈ f.parameters, p.name ≠ name) → ∀ p ∈ f.bare.parameters, p.name ≠ name := by
      intro name hfree p hp
      obtain ⟨q, hq, rfl⟩ := List.mem_map.mp hp
      exact hfree q hq
    have hadds : Adds f.bare settings ⟨f.bare.parameters ++ [(wiring ⟨element, true⟩ settings).1,
        (wiring ⟨element, true⟩ settings).2], t.thread⟩ element :=
      ⟨hnames _ h.no_state, hnames _ h.no_node_path, h.element_of_return, h.carries, rfl, h.synthesized⟩
    exact ⟨_, resolve_eq_ok_iff.mpr (.inr ⟨element, hadds⟩), rfl⟩

end StateThread

namespace WorkFunction

/-- Whether nothing that binding and generation take from the labels and the defaults of a function is lost without
them. -/
structure AsBare (f : WorkFunction) (kind : DirectiveKind) : Prop where
  aliases : ∀ p ∈ f.boundParameters kind, Aliases.ofLabel p.label "__" = Aliases.ofLabel p.name "__"
  payloads : ∀ p ∈ f.parameters, p.category {} ≠ .metaFlag
  defaults : ∀ p ∈ f.boundParameters kind, ∀ type, p.category {} = .value type → p.default? = none

theorem boundParameters_bare : f.bare.boundParameters kind = (f.boundParameters kind).map Parameter.bare := by
  rw [boundParameters, boundParameters, bare, List.filter_map]
  rfl

theorem names_bare : (f.bare.boundParameters kind).map (·.name) = (f.boundParameters kind).map (·.name) := by
  rw [boundParameters_bare, List.map_map]
  rfl

theorem groupsFor_bare : f.bare.groupsFor directive settings = f.groupsFor directive settings := by
  have hnames : ∀ g : WorkFunction, (g.commandLineParameters directive.kind settings).map (·.name) =
      (g.boundParameters directive.kind).map (·.name) := by
    intro g
    rw [commandLineParameters_eq_map, List.map_map]
    rfl
  rw [groupsFor, groupsFor, hnames, hnames, names_bare]

theorem meetsCategory_bare {p : Parameter} (hname : p.name ≠ "_" ∧ p.name ≠ "")
    (hmeta : p.category settings ≠ .metaFlag) : p.bare.MeetsCategory settings := by
  have hcategory : p.bare.category settings = p.category settings := rfl
  unfold Parameter.MeetsCategory
  rw [hcategory]
  cases h : p.category settings with
  | value type => trivial
  | flag => exact ⟨by simp [Parameter.bare], hname⟩
  | metaFlag => exact absurd h hmeta
  | optional type => exact Or.inl rfl
  | array type => exact Or.inl rfl
  | variadic type => exact Or.inl rfl

theorem bindable_bare (h : f.Bindable directive {}) (hnames : ∀ p ∈ f.parameters, p.name ≠ "_" ∧ p.name ≠ "")
    (hbare : f.AsBare directive.kind) : f.bare.Bindable directive {} where
  functionName := h.functionName
  main := h.main
  categories p hp := by
    obtain ⟨q, hq, rfl⟩ := List.mem_map.mp hp
    exact meetsCategory_bare (hnames q hq) (hbare.payloads q hq)
  labels p hp := by
    rw [boundParameters_bare] at hp
    obtain ⟨q, hq, rfl⟩ := List.mem_map.mp hp
    have hname := (hnames q (List.mem_filter.mp hq).1).1
    exact Aliases.plain_of_ofLabel_eq (hbare.aliases q hq) hname (h.labels q hq)
  aliases := by
    rw [boundParameters_bare, List.pairwise_map]
    refine h.aliases.imp_of_mem fun {p q} hp hq hdisjoint text htext => ?_
    have hp := hbare.aliases p hp
    have hq := hbare.aliases q hq
    simp only [Parameter.aliases, Parameter.bare, ← hp, ← hq] at htext ⊢
    exact hdisjoint text htext
  groups argument hargument := by
    obtain ⟨text, htext, hwords⟩ := h.groups argument hargument
    refine ⟨text, htext, fun word hword => ?_⟩
    obtain ⟨p, hp, hname⟩ := hwords word hword
    rw [boundParameters_bare]
    exact ⟨p.bare, List.mem_map_of_mem hp, hname⟩
  state hkind := by
    obtain ⟨t, ht⟩ := h.state hkind
    obtain ⟨t', ht', -⟩ := StateThread.resolve_bare ht
    exact ⟨t', ht'⟩

theorem shadowGroups_of_bind (h : f.bind directive settings = .ok b) :
    ∃ groups, f.groupsFor directive settings = .ok groups ∧ b.tables.shadowGroups = groups.map ShadowGroup.render := by
  obtain ⟨-, groups, _, _, hgroups, -, rfl⟩ := bind_eq_ok_iff.mp h
  exact ⟨groups, hgroups, rfl⟩

theorem shadowGroups_bare {bare : Binding} (h : f.bind directive settings = .ok b)
    (hbare : f.bare.bind directive settings = .ok bare) : bare.tables.shadowGroups = b.tables.shadowGroups := by
  obtain ⟨groups, hgroups, htable⟩ := shadowGroups_of_bind h
  obtain ⟨groups', hgroups', htable'⟩ := shadowGroups_of_bind hbare
  rw [groupsFor_bare, hgroups] at hgroups'
  obtain rfl := Except.ok.inj hgroups'
  rw [htable, htable']

theorem state_bare {bare : Binding} (h : f.bind directive settings = .ok b)
    (hbare : f.bare.bind directive settings = .ok bare) : bare.state = b.state := by
  by_cases hkind : directive.kind = .commandAction
  · obtain ⟨t, ht, hstate⟩ := state_of_bind h hkind
    obtain ⟨t', ht', hstate'⟩ := state_of_bind hbare hkind
    obtain ⟨t'', ht'', hthread⟩ := StateThread.resolve_bare ht
    obtain rfl := Except.ok.inj (ht'.symm.trans ht'')
    rw [hstate, hstate', hthread]
  · have hnone : ∀ {g : WorkFunction} {bound : Binding}, g.bind directive settings = .ok bound → bound.state = none := by
      intro g bound hbound
      have hsome := mt (function_of_bind hbound).1.mp hkind
      simpa using hsome
    rw [hnone h, hnone hbare]

/-- The rows of a function and of the bare one are the same exactly if the aliases are. -/
theorem labels_bare_iff {bare : Binding} (h : f.bind directive {} = .ok b)
    (hbare : f.bare.bind directive {} = .ok bare) : bare.tables.labels = b.tables.labels ↔
      ∀ p ∈ f.boundParameters directive.kind, Aliases.ofLabel p.label "__" = Aliases.ofLabel p.name "__" := by
  have hrows : ∀ {g : WorkFunction} {bound : Binding}, g.bind directive {} = .ok bound → bound.tables.labels =
      (g.boundParameters directive.kind).map fun p => ⟨p.name, Aliases.ofLabel p.label "__"⟩ := by
    intro g bound hbound
    rw [labels_of_bind hbound, parameters_of_bind hbound, List.map_map]
    rfl
  rw [hrows h, hrows hbare, boundParameters_bare, List.map_map, List.map_inj_left]
  simp [Parameter.bare, eq_comm]

end WorkFunction

namespace Peer

/-- Of the parameters but meta flags, only the default of a value is written in a peer. -/
theorem sourceOf_withoutDefault_iff {name label label' : String} {category : Category} {default? : Option String}
    (hmeta : category ≠ .metaFlag) :
    sourceOf ⟨name, label', category, none⟩ = sourceOf ⟨name, label, category, default?⟩ ↔
      ∀ type, category = .value type → default? = none := by
  cases category with
  | value type =>
    cases default? with
    | none => simp [sourceOf]
    | some text =>
      have hother : sourceOf ⟨name, label, .value type, some text⟩ ≠ .ok (.required name) := by
        simp [sourceOf, bind_eq_ok_iff, pure, Except.pure]
      have hrequired : sourceOf ⟨name, label', .value type, none⟩ = .ok (.required name) := rfl
      rw [hrequired]
      simpa using hother.symm
  | metaFlag => exact absurd rfl hmeta
  | _ => simp [sourceOf]

theorem localOf_eq_iff {p q : BoundParameter} (hsame : p.name = q.name) (hname : ∃ name, nameOf q.name = .ok name) :
    localOf p = localOf q ↔ sourceOf p = sourceOf q := by
  obtain ⟨name, hname⟩ := hname
  rw [localOf, localOf, hsame, hname]
  cases sourceOf p <;> cases sourceOf q <;> simp [bind, Except.bind, pure, Except.pure]

end Peer

namespace WorkFunction

variable {bare : Binding}

theorem payloads_of_bind_bare (hbare : f.bare.bind directive {} = .ok bare) :
    ∀ p ∈ f.parameters, p.category {} ≠ .metaFlag := by
  intro p hp hmeta
  have hcategory : p.bare.category {} = .metaFlag := hmeta
  have hmeets := (bindable_of_bind hbare).categories p.bare (List.mem_map_of_mem hp)
  unfold Parameter.MeetsCategory at hmeets
  rw [hcategory] at hmeets
  exact hmeets.1 rfl

theorem locals_bare_iff (h : f.bind directive {} = .ok b) (hbare : f.bare.bind directive {} = .ok bare)
    (hnames : ∀ p ∈ f.parameters, ∃ name, Peer.nameOf p.name = .ok name) :
    bare.parameters.map Peer.localOf = b.parameters.map Peer.localOf ↔
      ∀ p ∈ f.boundParameters directive.kind, ∀ type, p.category {} = .value type → p.default? = none := by
  rw [parameters_of_bind h, parameters_of_bind hbare, boundParameters_bare]
  simp only [List.map_map, List.map_inj_left]
  refine forall₂_congr fun p hp => ?_
  have hmem := (List.mem_filter.mp hp).1
  have hlocal : Peer.localOf (p.bare.bound {}) = Peer.localOf (p.bound {}) ↔
      Peer.sourceOf (p.bare.bound {}) = Peer.sourceOf (p.bound {}) := Peer.localOf_eq_iff rfl (hnames p hmem)
  exact hlocal.trans (Peer.sourceOf_withoutDefault_iff (payloads_of_bind_bare hbare p hmem))

/-- Where the bare function is bound, nothing is lost exactly if the labels and the locals of the peers stay. -/
theorem asBare_iff (h : f.bind directive {} = .ok b) (hbare : f.bare.bind directive {} = .ok bare)
    (hnames : ∀ p ∈ f.parameters, ∃ name, Peer.nameOf p.name = .ok name) :
    f.AsBare directive.kind ↔ bare.tables.labels = b.tables.labels ∧
      bare.parameters.map Peer.localOf = b.parameters.map Peer.localOf := by
  rw [labels_bare_iff h hbare, locals_bare_iff h hbare hnames]
  constructor
  · exact fun has => ⟨has.aliases, has.defaults⟩
  · rintro ⟨haliases, hdefaults⟩
    exact ⟨haliases, payloads_of_bind_bare hbare, hdefaults⟩

theorem metaFlags_of_no_payloads (h : f.bind directive {} = .ok b) (hnone : ∀ p ∈ f.parameters, p.category {} ≠ .metaFlag) :
    b.tables.metaFlags = [] := by
  rw [metaFlags_of_bind h, List.filterMap_eq_nil_iff]
  intro p hp
  rw [parameters_of_bind h] at hp
  obtain ⟨q, hq, rfl⟩ := List.mem_map.mp hp
  have hcategory : (q.bound {}).category ≠ .metaFlag := hnone q (List.mem_filter.mp hq).1
  rw [RuntimeTables.metaFlagDefault?, if_neg hcategory]

theorem tables_bare (h : f.bind directive {} = .ok b) (hbare : f.bare.bind directive {} = .ok bare)
    (hlabels : bare.tables.labels = b.tables.labels) : bare.tables = b.tables := by
  have hnone := payloads_of_bind_bare hbare
  have hnone' : ∀ p ∈ f.bare.parameters, p.category {} ≠ .metaFlag := by
    intro p hp
    obtain ⟨q, hq, rfl⟩ := List.mem_map.mp hp
    exact hnone q hq
  have hmetaFlags : bare.tables.metaFlags = b.tables.metaFlags := by
    rw [metaFlags_of_no_payloads h hnone, metaFlags_of_no_payloads hbare hnone']
  have hall : RuntimeTables.mk bare.tables.metaFlags bare.tables.shadowGroups bare.tables.labels =
      RuntimeTables.mk b.tables.metaFlags b.tables.shadowGroups b.tables.labels := by
    rw [hmetaFlags, shadowGroups_bare h hbare, hlabels]
  exact hall

/-- A bare function that has lost nothing has the same peers. -/
theorem peersOf_bare {g : FunctionItem} (h : f.bind directive {} = .ok b) (hbare : f.bare.bind directive {} = .ok bare)
    (hnames : ∀ p ∈ f.parameters, ∃ name, Peer.nameOf p.name = .ok name) (has : f.AsBare directive.kind) :
    Peer.peersOf g bare directive {} = Peer.peersOf g b directive {} := by
  obtain ⟨hlabels, hlocals⟩ := (asBare_iff h hbare hnames).mp has
  obtain ⟨-, _, hfunction⟩ := function_of_bind h
  obtain ⟨-, _, hfunction'⟩ := function_of_bind hbare
  refine Peer.peersOf_congr ?_ (tables_bare h hbare hlabels) (state_bare h hbare) hlocals ?_ ?_ ?_
  · rw [kind_of_bind h, kind_of_bind hbare]
  all_goals
    rw [hfunction, hfunction']
    rfl

end WorkFunction

end CommandBinding
