import CommandBinding.Proofs.StateWiring

/-!
Where the two parameters of a state stand. Whichever way a state is resolved, the parameter list ends in the node path
and the state, and their types and the return type fit the element type that is reported. Parameters that stand
elsewhere are refused, each case by one finding that no other case gives.
-/
namespace CommandBinding.StateThread

variable {f : WorkFunction} {settings : Settings} {state : Parameter} {before? : Option Parameter}
  {returnType element : String} {found : List Finding}

/-- The last two parameters of a resolved state, and how its parameter list comes from the declared one. -/
structure EndsInState (f : WorkFunction) (settings : Settings) (t : ThreadedParameters) (front : List Parameter)
    (nodePath state : Parameter) : Prop where
  parameters : t.parameters = front ++ [nodePath, state]
  node_path_name : nodePath.name = "node_path"
  state_name : state.name = "state"
  state_type : CodeText.sequenceElement? state.typeText = some t.thread.elementType
  node_path_type : nodePath.typeText = "Vec<" ++ settings.chainNodeType ++ "<" ++ t.thread.elementType ++ ">>"
  return_type : f.returnType = "" ∨ f.returnType = "Vec<" ++ t.thread.elementType ++ ">"
  declared_or_added : (t.parameters = f.parameters ∧ t.thread.synthesized = false) ∨
    (front = f.parameters ∧ t.thread.synthesized = true ∧ ∀ p ∈ f.parameters, p.name ≠ "node_path" ∧ p.name ≠ "state")

theorem nodePathType_eq (t : StateThread) (chainNodeType : String) :
    t.nodePathType chainNodeType = "Vec<" ++ chainNodeType ++ "<" ++ t.elementType ++ ">>" := by
  have hangles : (">>" : String) = ">" ++ ">" := rfl
  rw [nodePathType, CodeText.sequenceOf, hangles]
  simp only [String.append_assoc]

theorem endsInState_of_declares {t : ThreadedParameters} {front : List Parameter} {last : Parameter}
    (h : Declares f settings t front last) : ∃ front nodePath state, EndsInState f settings t front nodePath state := by
  obtain ⟨nodePath, hbefore, hname, htype⟩ := h.carries.node_path
  obtain ⟨before, hfront⟩ : ∃ before, front = before ++ [nodePath] := List.getLast?_eq_some_iff.mp hbefore
  have hparameters : t.parameters = before ++ [nodePath, last] := by
    rw [h.kept, h.parameters, hfront, List.append_assoc]
    rfl
  refine ⟨before, nodePath, last, hparameters, hname, h.name, h.carries.element_of_state, ?_, h.carries.returned, ?_⟩
  · rw [htype, nodePathType_eq]
  · exact Or.inl ⟨h.kept, h.declared⟩

theorem endsInState_of_adds {t : ThreadedParameters} (h : Adds f settings t element) :
    ∃ front nodePath state, EndsInState f settings t front nodePath state := by
  obtain ⟨nodePath, hbefore, hname, htype⟩ := h.carries.node_path
  have hnodePath : (wiring ⟨element, true⟩ settings).1 = nodePath := Option.some.inj hbefore
  have hadded := h.added
  rw [hnodePath] at hadded
  have hfree : ∀ p ∈ f.parameters, p.name ≠ "node_path" ∧ p.name ≠ "state" :=
    fun p hp => ⟨h.no_node_path p hp, h.no_state p hp⟩
  refine ⟨f.parameters, nodePath, _, hadded, hname, rfl, h.carries.element_of_state, ?_, h.carries.returned, ?_⟩
  · rw [htype, nodePathType_eq]
  · exact Or.inr ⟨rfl, h.synthesized, hfree⟩

/-- A declared list that ends in a fitting state is accepted as it is. -/
theorem resolve_of_endsInState {front : List Parameter} {nodePath : Parameter}
    (h : EndsInState f settings ⟨f.parameters, ⟨element, false⟩⟩ front nodePath state) :
    resolve f settings = .ok ⟨f.parameters, ⟨element, false⟩⟩ := by
  have hparameters : f.parameters = (front ++ [nodePath]) ++ [state] := by
    rw [List.append_assoc]
    exact h.parameters
  have hlast : (front ++ [nodePath]).getLast? = some nodePath := List.getLast?_concat
  have htype : nodePath.typeText = nodePathType ⟨element, false⟩ settings.chainNodeType := by
    rw [nodePathType_eq]
    exact h.node_path_type
  have hcarries : Carries state (front ++ [nodePath]).getLast? f.returnType settings element :=
    ⟨h.state_type, ⟨nodePath, hlast, h.node_path_name, htype⟩, h.return_type⟩
  exact resolve_eq_ok_iff.mpr (Or.inl ⟨front ++ [nodePath], state, hparameters, h.state_name, hcarries, rfl, rfl⟩)

def IsPlacement (fault : Fault) : Prop :=
  fault = .stateNotLast ∨ fault = .nodePathWithoutState

theorem not_isPlacement_of_check (h : check state before? returnType settings = .error found) :
    ∀ finding ∈ found, ¬IsPlacement finding.fault := by
  unfold check at h
  split at h
  · obtain rfl := Except.error.inj h
    simp [IsPlacement, Finding.onParameter]
  · obtain ⟨-, rfl⟩ := unlessFound_eq_error_iff.mp h
    intro finding hfinding
    rcases List.mem_append.mp hfinding with hfinding | hfinding <;> split_ifs at hfinding
    all_goals simp_all [IsPlacement, Finding.onFunction]

theorem not_isPlacement_of_synthesize (h : synthesize f settings = .error found) :
    ∀ finding ∈ found, ¬IsPlacement finding.fault := by
  simp only [synthesize, bind_eq_error_iff] at h
  rcases h with h | ⟨element, -, h | ⟨checked, -, h⟩⟩
  · unfold elementOfReturn at h
    split at h
    · simp at h
    · split at h
      · simp at h
      · obtain rfl := Except.error.inj h
        simp [IsPlacement, Finding.onFunction]
  · exact not_isPlacement_of_check h
  · simp [pure, Except.pure] at h

/-- A fault of placement is never reported for a list that ends in a state. -/
theorem not_isPlacement_of_final_state {front : List Parameter} {last : Parameter}
    (hf : f.parameters = front ++ [last]) (hname : last.name = stateName) (h : resolve f settings = .error found) :
    ∀ finding ∈ found, ¬IsPlacement finding.fault := by
  rw [resolve_of_final_state hf hname, bind_eq_error_iff] at h
  rcases h with h | ⟨checked, -, h⟩
  · exact not_isPlacement_of_check h
  · simp [pure, Except.pure] at h

theorem resolve_eq_stateNotLast_iff : resolve f settings = .error [.onParameter stateName .stateNotLast] ↔
    (∃ p ∈ f.parameters, p.name = stateName) ∧ ∀ front last, f.parameters = front ++ [last] → last.name ≠ stateName := by
  rcases final_state_or_not f with ⟨front, last, hf, hname⟩ | hlast
  · constructor
    · intro h
      have hnot := not_isPlacement_of_final_state hf hname h _ (List.mem_singleton.mpr rfl)
      exact absurd (Or.inl rfl) hnot
    · rintro ⟨-, hlast⟩
      exact absurd hname (hlast front last hf)
  · rw [resolve_of_no_final_state hlast, resolve.withoutFinalState, ← parameter?_isSome_iff]
    by_cases hstate : (f.parameter? stateName).isSome = true
    · rw [if_pos hstate]
      exact ⟨fun _ => ⟨hstate, hlast⟩, fun _ => rfl⟩
    · refine iff_of_false ?_ fun h => hstate h.1
      rw [if_neg hstate]
      split
      · simp [Finding.onFunction, Finding.onParameter]
      · intro h
        exact not_isPlacement_of_synthesize h _ (List.mem_singleton.mpr rfl) (Or.inl rfl)

theorem resolve_eq_nodePathWithoutState_iff : resolve f settings = .error [.onFunction .nodePathWithoutState] ↔
    (∃ p ∈ f.parameters, p.name = nodePathName) ∧ ∀ p ∈ f.parameters, p.name ≠ stateName := by
  have hno : (∀ p ∈ f.parameters, p.name ≠ stateName) ↔ ¬(f.parameter? stateName).isSome = true := by
    rw [parameter?_isSome_iff]
    simp
  rcases final_state_or_not f with ⟨front, last, hf, hname⟩ | hlast
  · constructor
    · intro h
      have hnot := not_isPlacement_of_final_state hf hname h _ (List.mem_singleton.mpr rfl)
      exact absurd (Or.inr rfl) hnot
    · rintro ⟨-, hstate⟩
      exact absurd hname (hstate last (by simp [hf]))
  · rw [resolve_of_no_final_state hlast, resolve.withoutFinalState, hno, ← parameter?_isSome_iff]
    by_cases hstate : (f.parameter? stateName).isSome = true
    · rw [if_pos hstate]
      exact iff_of_false (by simp [Finding.onFunction, Finding.onParameter]) fun h => h.2 hstate
    · rw [if_neg hstate]
      by_cases hpath : (f.parameter? nodePathName).isSome = true
      · rw [if_pos hpath]
        exact ⟨fun _ => ⟨hpath, hstate⟩, fun _ => rfl⟩
      · rw [if_neg hpath]
        refine iff_of_false (fun h => ?_) fun h => hpath h.1
        exact not_isPlacement_of_synthesize h _ (List.mem_singleton.mpr rfl) (Or.inr rfl)

/-- A resolved state ends the parameter list, a declared list that ends in one is accepted, and a state or a node path
that stands elsewhere is refused by the one finding that says so. -/
theorem resolve_places_state (f : WorkFunction) (settings : Settings) :
    (∀ t, resolve f settings = .ok t → ∃ front nodePath state, EndsInState f settings t front nodePath state) ∧
      (∀ element, (∃ front nodePath state, EndsInState f settings ⟨f.parameters, ⟨element, false⟩⟩ front nodePath state) →
        resolve f settings = .ok ⟨f.parameters, ⟨element, false⟩⟩) ∧
      (resolve f settings = .error [.onParameter "state" .stateNotLast] ↔
        (∃ p ∈ f.parameters, p.name = "state") ∧
          ∀ front last, f.parameters = front ++ [last] → last.name ≠ "state") ∧
      (resolve f settings = .error [.onFunction .nodePathWithoutState] ↔
        (∃ p ∈ f.parameters, p.name = "node_path") ∧ ∀ p ∈ f.parameters, p.name ≠ "state") := by
  refine ⟨?_, ?_, resolve_eq_stateNotLast_iff, resolve_eq_nodePathWithoutState_iff⟩
  · intro t ht
    rcases resolve_eq_ok_iff.mp ht with ⟨front, last, hdeclares⟩ | ⟨element, hadds⟩
    · exact endsInState_of_declares hdeclares
    · exact endsInState_of_adds hadds
  · rintro element ⟨front, nodePath, state, hends⟩
    exact resolve_of_endsInState hends

end CommandBinding.StateThread
