import NetPack.Single

/-!
# Findings

A finding is reported and the packing goes on. It is kept as its cause, and `message` words it.
-/

namespace NetPack

/-- What is reported while packing goes on. -/
inductive Diagnostic
  /-- An attribute that the rule of its operator did not look at. -/
  | unhandledAttribute (operator opType attr : String)
  /-- A 64-bit element that was moved to the nearest bound of the 32-bit elements. -/
  | valueClamped (tensor : String) (value : Int64) (clampedTo : Int32)
deriving DecidableEq, Inhabited

def Diagnostic.message : Diagnostic → String
  | unhandledAttribute op ty attr =>
    "unsupported attribute " ++ attr ++ " for operator " ++ ty ++ " (\"" ++ op ++ "\")"
  | valueClamped t v c =>
    "clamping out-of-range value " ++ toString v.toInt ++ " in tensor \"" ++ t ++ "\" to "
      ++ toString c.toInt

end NetPack
