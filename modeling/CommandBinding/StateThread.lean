import CommandBinding.Finding
import CommandBinding.Settings
import CommandBinding.WorkFunction

/-!
State threading of command actions. Actions are called one behind another. Each is given the path that led to it and
a sequence of values, the state, and what it returns is the state of the next. With elements of type `T` its
parameters end in

    node_path: Vec<ChainNode<T>>, state: Vec<T>

and it returns `Vec<T>` or nothing. A function that declares neither parameter gets both, where `T` is read off what
it returns, or is the unit type; they then have to pass the check that declared ones pass.
-/
namespace CommandBinding

/-- The state that a command action threads. -/
structure StateThread where
  /-- The type of the elements of the state. -/
  elementType : String
  /-- Whether the two parameters were added to the declaration. -/
  synthesized : Bool
deriving DecidableEq, Repr

namespace StateThread

def nodePathType (t : StateThread) (chainNodeType : String) : String :=
  CodeText.sequenceOf (chainNodeType ++ "<" ++ t.elementType ++ ">")

def stateType (t : StateThread) : String :=
  CodeText.sequenceOf t.elementType

end StateThread

/-- A parameter list that ends in the node path and the state. -/
structure ThreadedParameters where
  parameters : List Parameter
  thread : StateThread
deriving DecidableEq, Repr

namespace StateThread

/-- Checks a final state parameter, the parameter before it and the return type against each other, and returns
the element type. -/
def check (state : Parameter) (before? : Option Parameter) (returnType : String) (settings : Settings) :
    Except (List Finding) String :=
  match CodeText.sequenceElement? state.typeText with
  | none => .error [.onParameter stateName (.stateNotSequence state.typeText)]
  | some element =>
    let nodePath := nodePathType ⟨element, false⟩ settings.chainNodeType
    let returned := CodeText.sequenceOf element
    unlessFound
      ((if before?.any fun p => p.name == nodePathName && p.typeText == nodePath then []
        else [.onFunction (.missingNodePath nodePath)]) ++
       (if returnType = "" || returnType = returned then []
        else [.onFunction (.stateReturnMismatch returned)]))
      element

def elementOfReturn (returnType : String) : Except (List Finding) String :=
  if returnType = "" then .ok unitType
  else match CodeText.sequenceElement? returnType with
    | some element => .ok element
    | none => .error [.onFunction (.returnTypeNotSequence returnType)]

/-- The parameters that carry the state `t`. -/
def wiring (t : StateThread) (settings : Settings) : Parameter × Parameter :=
  (.declare nodePathName (t.nodePathType settings.chainNodeType), .declare stateName t.stateType)

def synthesize (f : WorkFunction) (settings : Settings) : Except (List Finding) ThreadedParameters := do
  let element ← elementOfReturn f.returnType
  let (nodePath, state) := wiring ⟨element, true⟩ settings
  let element ← check state (some nodePath) f.returnType settings
  pure ⟨f.parameters ++ [nodePath, state], ⟨element, true⟩⟩

/-- Finds the state that a function threads, and its parameter list with the node path and the state at the end. -/
def resolve (f : WorkFunction) (settings : Settings) : Except (List Finding) ThreadedParameters :=
  match f.parameters.reverse with
  | last :: front =>
    if last.name = stateName then do
      let element ← check last front.head? f.returnType settings
      pure ⟨f.parameters, ⟨element, false⟩⟩
    else withoutFinalState
  | [] => withoutFinalState
where
  /-- A function whose last parameter is not the state. -/
  withoutFinalState : Except (List Finding) ThreadedParameters :=
    if (f.parameter? stateName).isSome then .error [.onParameter stateName .stateNotLast]
    else if (f.parameter? nodePathName).isSome then .error [.onFunction .nodePathWithoutState]
    else synthesize f settings

end StateThread

end CommandBinding
