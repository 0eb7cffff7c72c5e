import NetPack.Build
import NetPack.Schema.Encode

/-!
# Packing a model

The graph of a model is built into a network, and the network is written as bytes.
-/

namespace NetPack

/-- A packed model with the findings made on the way. -/
structure Packed where
  bytes : List UInt8
  diagnostics : List Diagnostic
deriving DecidableEq

/-- The bytes of a network. -/
def Network.pack (n : Network) : Traced (List UInt8) := do
  let bytes := n.toBytes
  .tell (.serializedGraph bytes.length)
  pure bytes

/-- The packed form of a model. -/
def Onnx.Model.pack (m : Onnx.Model) : Traced Packed := do
  let graph ← .ofOption .missingGraph m.graph
  let (network, log) ← (Network.build graph).withLog
  let bytes ← network.pack
  let diagnostics := diagnosticsOf log
  .tell (.serializedModel bytes.length diagnostics.length)
  pure { bytes, diagnostics }

end NetPack
