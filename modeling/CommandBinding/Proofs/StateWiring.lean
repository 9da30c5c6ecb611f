import CommandBinding.Proofs.Steps
import CommandBinding.Proofs.WrappedText
import CommandBinding.StateThread
import Mathlib.Tactic.Common

/-!
What a resolved state looks like. A function that threads a state either declares it at its end or gets the two
parameters added; in both cases the pair at the end has passed the same check.
-/
namespace CommandBinding.StateThread

variable {f : WorkFunction} {settings : Settings} {state : Parameter} {before? : Option Parameter}
  {returnType element : String} {found : List Finding}

/-- The two last parameters carry a state with elements of that type. -/
structure Carries (state : Parameter) (before? : Option Parameter) (returnType : String) (settings : Settings)
    (element : String) : Prop where
  element_of_state : CodeText.sequenceElement? state.typeText = some element
  node_path : ∃ nodePath, before? = some nodePath ∧ nodePath.name = nodePathName ∧
    nodePath.typeText = nodePathType ⟨element, false⟩ settings.chainNodeType
  returned : returnType = "" ∨ returnType = CodeText.sequenceOf element

theorem any_isNodePath_iff {type : String} :
    (before?.any fun p => p.name == nodePathName && p.typeText == type) = true ↔
      ∃ nodePath, before? = some nodePath ∧ nodePath.name = nodePathName ∧ nodePath.typeText = type := by
  cases before? <;> simp

theorem check_eq_ok_iff :
    check state before? returnType settings = .ok element ↔ Carries state before? returnType settings element := by
  unfold check
  split
  · next hnone =>
    simp only [reduceCtorEq, false_iff]
    rintro ⟨hs, -, -⟩
    simp [hnone] at hs
  · next found hsome =>
    simp only [unlessFound_eq_ok_iff, List.append_eq_nil_iff, ite_eq_left_iff, any_isNodePath_iff,
      List.cons_ne_self, imp_false, Classical.not_not, Bool.or_eq_true, decide_eq_true_eq]
    constructor
    · rintro ⟨⟨hpath, hreturn⟩, rfl⟩
      exact ⟨hsome, hpath, hreturn⟩
    · rintro ⟨hs, hpath, hreturn⟩
      obtain rfl : found = element := Option.some.inj (hsome.symm.trans hs)
      exact ⟨⟨hpath, hreturn⟩, rfl⟩

/-- A failed check says so, and says nothing twice. -/
theorem nodup_of_check_eq_error (h : check state before? returnType settings = .error found) :
    found ≠ [] ∧ (found.map (·.fault)).Nodup := by
  unfold check at h
  split at h
  · simp only [Except.error.injEq] at h
    subst h
    simp
  · obtain ⟨hne, rfl⟩ := unlessFound_eq_error_iff.mp h
    refine ⟨hne, ?_⟩
    split_ifs <;> simp [Finding.onFunction]

/-- The parameters of a function that declares its state. -/
structure Declares (f : WorkFunction) (settings : Settings) (t : ThreadedParameters) (front : List Parameter)
    (last : Parameter) : Prop where
  parameters : f.parameters = front ++ [last]
  name : last.name = stateName
  carries : Carries last front.getLast? f.returnType settings t.thread.elementType
  kept : t.parameters = f.parameters
  declared : t.thread.synthesized = false

/-- The parameters of a function to which its state is added. -/
structure Adds (f : WorkFunction) (settings : Settings) (t : ThreadedParameters) (element : String) : Prop where
  no_state : ∀ p ∈ f.parameters, p.name ≠ stateName
  no_node_path : ∀ p ∈ f.parameters, p.name ≠ nodePathName
  element_of_return : elementOfReturn f.returnType = .ok element
  carries : Carries (wiring ⟨element, true⟩ settings).2 (some (wiring ⟨element, true⟩ settings).1) f.returnType
    settings t.thread.elementType
  added : t.parameters = f.parameters ++ [(wiring ⟨element, true⟩ settings).1, (wiring ⟨element, true⟩ settings).2]
  synthesized : t.thread.synthesized = true

theorem parameter?_isSome_iff {name : String} :
    (f.parameter? name).isSome = true ↔ ∃ p ∈ f.parameters, p.name = name := by
  simp [WorkFunction.parameter?]

theorem nodup_of_elementOfReturn_eq_error (h : elementOfReturn returnType = .error found) :
    found ≠ [] ∧ (found.map (·.fault)).Nodup := by
  unfold elementOfReturn at h
  split_ifs at h
  split at h
  · simp at h
  · simp only [Except.error.injEq] at h
    subst h
    simp

theorem synthesize_eq_ok_iff {t : ThreadedParameters} :
    synthesize f settings = .ok t ↔ ∃ element, elementOfReturn f.returnType = .ok element ∧
      Carries (wiring ⟨element, true⟩ settings).2 (some (wiring ⟨element, true⟩ settings).1) f.returnType settings
        t.thread.elementType ∧
      t.parameters = f.parameters ++ [(wiring ⟨element, true⟩ settings).1, (wiring ⟨element, true⟩ settings).2] ∧
      t.thread.synthesized = true := by
  simp only [synthesize, bind_eq_ok_iff, check_eq_ok_iff]
  obtain ⟨parameters, elementType, synthesized⟩ := t
  constructor
  · rintro ⟨element, helement, checked, hchecked, h⟩
    simp only [pure, Except.pure, Except.ok.injEq, ThreadedParameters.mk.injEq, StateThread.mk.injEq] at h
    obtain ⟨rfl, rfl, rfl⟩ := h
    exact ⟨element, helement, hchecked, rfl, rfl⟩
  · rintro ⟨element, helement, hchecked, rfl, rfl⟩
    exact ⟨element, helement, elementType, hchecked, rfl⟩

theorem withoutFinalState_eq_ok_iff {t : ThreadedParameters} :
    resolve.withoutFinalState f settings = .ok t ↔ ∃ element, Adds f settings t element := by
  unfold resolve.withoutFinalState
  split_ifs with hstate hpath
  · obtain ⟨p, hp, hname⟩ := parameter?_isSome_iff.mp hstate
    simp only [false_iff, not_exists]
    exact fun _ h => h.no_state p hp hname
  · obtain ⟨p, hp, hname⟩ := parameter?_isSome_iff.mp hpath
    simp only [false_iff, not_exists]
    exact fun _ h => h.no_node_path p hp hname
  · rw [synthesize_eq_ok_iff]
    simp only [parameter?_isSome_iff, not_exists, not_and] at hstate hpath
    constructor
    · rintro ⟨element, helement, hcarries, hadded, hsynthesized⟩
      exact ⟨element, hstate, hpath, helement, hcarries, hadded, hsynthesized⟩
    · rintro ⟨element, h⟩
      exact ⟨element, h.element_of_return, h.carries, h.added, h.synthesized⟩

theorem resolve_of_final_state {front : List Parameter} {last : Parameter} (h : f.parameters = front ++ [last])
    (hname : last.name = stateName) :
    resolve f settings = (do
      let element ← check last front.getLast? f.returnType settings
      pure ⟨f.parameters, ⟨element, false⟩⟩) := by
  unfold resolve
  rw [h, List.reverse_append, List.reverse_singleton, List.singleton_append]
  simp only [hname, ↓reduceIte, List.head?_reverse]

theorem resolve_of_no_final_state
    (h : ∀ front last, f.parameters = front ++ [last] → last.name ≠ stateName) :
    resolve f settings = resolve.withoutFinalState f settings := by
  unfold resolve
  split
  · next last front he =>
    have hlast : f.parameters = front.reverse ++ [last] := by simpa using congrArg List.reverse he
    rw [if_neg (h _ _ hlast)]
  · rfl

theorem final_state_or_not (f : WorkFunction) :
    (∃ front last, f.parameters = front ++ [last] ∧ last.name = stateName) ∨
      ∀ front last, f.parameters = front ++ [last] → last.name ≠ stateName := by
  by_cases h : ∃ front last, f.parameters = front ++ [last] ∧ last.name = stateName
  · exact Or.inl h
  · exact Or.inr fun front last hf hname => h ⟨front, last, hf, hname⟩

/-- The state is declared, or the two parameters are added. -/
theorem resolve_eq_ok_iff {t : ThreadedParameters} :
    resolve f settings = .ok t ↔
      (∃ front last, Declares f settings t front last) ∨ ∃ element, Adds f settings t element := by
  rcases final_state_or_not f with ⟨front, last, hf, hname⟩ | hlast
  · have hno : ¬∃ element, Adds f settings t element :=
      fun ⟨_, h⟩ => h.no_state last (by simp [hf]) hname
    simp only [resolve_of_final_state hf hname, bind_eq_ok_iff, check_eq_ok_iff, hno, or_false]
    constructor
    · rintro ⟨element, hcarries, h⟩
      obtain rfl := Except.ok.inj h
      exact ⟨front, last, hf, hname, hcarries, rfl, rfl⟩
    · rintro ⟨front', last', h⟩
      obtain ⟨rfl, rfl⟩ : front' = front ∧ last' = last := by
        have := h.parameters.symm.trans hf
        rw [List.append_inj_left' this rfl]
        simpa using List.append_inj_right' this rfl
      obtain ⟨parameters, elementType, synthesized⟩ := t
      obtain ⟨-, -, hcarries, rfl, rfl⟩ := h
      exact ⟨elementType, hcarries, rfl⟩
  · have hno : ¬∃ front last, Declares f settings t front last :=
      fun ⟨front, last, h⟩ => hlast front last h.parameters h.name
    simp only [resolve_of_no_final_state hlast, withoutFinalState_eq_ok_iff, hno, false_or]

/-- A state that cannot be resolved is reported, and nothing is reported twice. -/
theorem nodup_of_resolve_eq_error (h : resolve f settings = .error found) :
    found ≠ [] ∧ (found.map (·.fault)).Nodup := by
  rcases final_state_or_not f with ⟨front, last, hf, hname⟩ | hlast
  · rw [resolve_of_final_state hf hname, bind_eq_error_iff] at h
    rcases h with h | ⟨_, _, h⟩
    · exact nodup_of_check_eq_error h
    · simp [pure, Except.pure] at h
  · rw [resolve_of_no_final_state hlast] at h
    unfold resolve.withoutFinalState at h
    split_ifs at h
    · simp only [Except.error.injEq] at h
      subst h
      simp
    · simp only [Except.error.injEq] at h
      subst h
      simp
    · simp only [synthesize, bind_eq_error_iff] at h
      rcases h with h | ⟨_, _, h | ⟨_, _, h⟩⟩
      · exact nodup_of_elementOfReturn_eq_error h
      · exact nodup_of_check_eq_error h
      · simp [pure, Except.pure] at h

end CommandBinding.StateThread
