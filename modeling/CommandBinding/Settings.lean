/-!
The names that the binding rules reserve. A runtime library may rename its types, so none of them is fixed.
-/
namespace CommandBinding

/-- Names of types with a meaning of their own, and what separates the two halves of a label. -/
structure Settings where
  flagType : String := "Flag"
  metaFlagType : String := "MetaFlag"
  variadicType : String := "Variadic"
  chainNodeType : String := "ChainNode"
  labelSeparator : String := "__"
deriving DecidableEq, Repr, Inhabited

end CommandBinding
