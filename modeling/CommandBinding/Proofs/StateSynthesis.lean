import CommandBinding.Proofs.EnclosedText
import CommandBinding.Proofs.StateWiring

/-!
State that is added to a function. The two parameters that are added always pass the check that declared ones pass,
whatever the element type. What may fail is the return type: the element type is read off it under any path, but it is
then compared with the bare sequence type.
-/
namespace CommandBinding.StateThread

variable {f : WorkFunction} {settings : Settings} {returnType element : String}

theorem elementOfReturn_eq_ok_iff : elementOfReturn returnType = .ok element ↔
    (returnType = "" ∧ element = unitType) ∨ CodeText.sequenceElement? returnType = some element := by
  unfold elementOfReturn
  split
  · next h =>
    have hnone : CodeText.sequenceElement? "" = none := rfl
    simp [h, hnone, eq_comm]
  · next h =>
    split
    · next found hfound => simp [h, hfound]
    · next hnone => simp [h, hnone]

/-- What is read off a spaced return type can stand between brackets, and is spaced itself. -/
theorem isInner_of_elementOfReturn (h : elementOfReturn returnType = .ok element)
    (htight : CodeText.tight returnType = returnType) :
    CodeText.IsInner element.toList ∧ CodeText.tightFrom .code none false element.toList = element.toList := by
  rcases elementOfReturn_eq_ok_iff.mp h with ⟨-, rfl⟩ | hsequence
  · exact ⟨⟨by decide, by decide, by decide⟩, by decide⟩
  · exact ⟨CodeText.isInner_of_sequenceElement? hsequence, CodeText.tightFrom_of_sequenceElement? hsequence htight⟩

def carriers (t : StateThread) (settings : Settings) : List Parameter :=
  [⟨nodePathName, nodePathName, t.nodePathType settings.chainNodeType, none⟩,
   ⟨stateName, stateName, t.stateType, none⟩]

/-- The types of the two parameters are declared as they are written. -/
theorem wiring_eq (hspaced : CodeText.tightFrom .code none false element.toList = element.toList)
    (hchain : CodeText.isAsciiName settings.chainNodeType = true) :
    [(wiring ⟨element, true⟩ settings).1, (wiring ⟨element, true⟩ settings).2] =
      carriers ⟨element, true⟩ settings := by
  have hnode : CodeText.tightFrom .code none false (settings.chainNodeType ++ "<" ++ element ++ ">").toList =
      (settings.chainNodeType ++ "<" ++ element ++ ">").toList := by
    simpa using CodeText.tightFrom_wrap (CodeText.continuesName_of_isAsciiName hchain) hspaced
  simp [wiring, carriers, Parameter.declare, nodePathType, stateType, CodeText.tight_sequenceOf hnode,
    CodeText.tight_sequenceOf hspaced]

/-- The pair that is added fails the check for the return type only. -/
theorem check_of_carriers {nodePath state : Parameter}
    (hcarriers : [nodePath, state] = carriers ⟨element, true⟩ settings)
    (hinner : CodeText.IsInner element.toList) : check state (some nodePath) returnType settings =
      if returnType = "" ∨ returnType = CodeText.sequenceOf element then .ok element
      else .error [.onFunction (.stateReturnMismatch (CodeText.sequenceOf element))] := by
  simp only [carriers, List.cons.injEq, and_true] at hcarriers
  obtain ⟨rfl, rfl⟩ := hcarriers
  have helement : CodeText.sequenceElement? (stateType ⟨element, true⟩) = some element :=
    CodeText.sequenceElement?_eq_some_iff.mpr (CodeText.wrapped?_sequenceOf hinner)
  simp only [check, helement]
  by_cases h : returnType = "" ∨ returnType = CodeText.sequenceOf element
  · simp [h, nodePathType, unlessFound]
  · simp [h, nodePathType, unlessFound]

/-- A function that declares neither parameter gets both if it returns nothing or the bare sequence type; a sequence
type under a path is refused, although the element type is read off it. -/
theorem resolve_of_sequence_return (hstate : ∀ p ∈ f.parameters, p.name ≠ stateName)
    (hpath : ∀ p ∈ f.parameters, p.name ≠ nodePathName) (hchain : CodeText.isAsciiName settings.chainNodeType = true)
    (htight : CodeText.tight f.returnType = f.returnType)
    (helement : (f.returnType = "" ∧ element = unitType) ∨ CodeText.sequenceElement? f.returnType = some element) :
    resolve f settings =
      if f.returnType = "" ∨ f.returnType = CodeText.sequenceOf element then
        .ok ⟨f.parameters ++ carriers ⟨element, true⟩ settings, ⟨element, true⟩⟩
      else .error [.onFunction (.stateReturnMismatch (CodeText.sequenceOf element))] := by
  have hreturn := elementOfReturn_eq_ok_iff.mpr helement
  obtain ⟨hinner, hspaced⟩ := isInner_of_elementOfReturn hreturn htight
  have hwiring := wiring_eq hspaced hchain
  have hlast : ∀ front last, f.parameters = front ++ [last] → last.name ≠ stateName :=
    fun front last hf => hstate last (by simp [hf])
  have hno {name : String} (h : ∀ p ∈ f.parameters, p.name ≠ name) : ¬(f.parameter? name).isSome = true := by
    rw [parameter?_isSome_iff]
    rintro ⟨p, hp, hname⟩
    exact h p hp hname
  rw [resolve_of_no_final_state hlast, resolve.withoutFinalState, if_neg (hno hstate), if_neg (hno hpath), synthesize,
    hreturn]
  simp only [bind, Except.bind]
  rw [check_of_carriers hwiring hinner, hwiring]
  by_cases h : f.returnType = "" ∨ f.returnType = CodeText.sequenceOf element
  · simp only [if_pos h]
    rfl
  · simp only [if_neg h]

/-- The same sequence of widgets, with the name of its type alone and under a path. -/
theorem resolve_build_under_path :
    let build (returnType : String) : WorkFunction := { WorkFunction.named "build" with returnType }
    resolve (build "Vec<Widget>") {} =
        .ok ⟨[⟨"node_path", "node_path", "Vec<ChainNode<Widget>>", none⟩, ⟨"state", "state", "Vec<Widget>", none⟩],
          ⟨"Widget", true⟩⟩ ∧
      resolve (build "std::vec::Vec<Widget>") {} = .error [.onFunction (.stateReturnMismatch "Vec<Widget>")] := by
  intro build
  have hno : ∀ type name, ∀ p ∈ (build type).parameters, p.name ≠ name := by simp [build, WorkFunction.named]
  have hbare : CodeText.sequenceElement? "Vec<Widget>" = some "Widget" := by decide +kernel
  have hunder : CodeText.sequenceElement? "std::vec::Vec<Widget>" = some "Widget" := by decide +kernel
  exact ⟨@resolve_of_sequence_return (build "Vec<Widget>") {} "Widget" (hno _ _) (hno _ _) (by decide)
      (by decide +kernel) (Or.inr hbare),
    @resolve_of_sequence_return (build "std::vec::Vec<Widget>") {} "Widget" (hno _ _) (hno _ _) (by decide)
      (by decide +kernel) (Or.inr hunder)⟩

end CommandBinding.StateThread
