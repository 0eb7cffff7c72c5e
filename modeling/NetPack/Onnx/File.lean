import NetPack.Onnx.Basic
import NetPack.Wire.Message

/-!
# ONNX files

The model that the bytes of a file hold. Integers of 32 bits are the low bits of what the file says.
-/

namespace NetPack.Onnx

open Wire (Record)

/-- A 32-bit integer from its bits. -/
def int32OfBits (n : Nat) : Int32 :=
  Int32.ofNat n

/-- A 64-bit integer from its bits. -/
def int64OfBits (n : Nat) : Int64 :=
  Int64.ofNat n

/-- A float from its bits. -/
def singleOfBits (n : Nat) : Single :=
  ⟨UInt32.ofNat n⟩

def Tensor.ofRecord (r : Record) : Tensor where
  name := r.text 8
  dims := (r.numbers 1).map int64OfBits
  elementType := int32OfBits (r.number 2)
  floatData := (r.numbers 4).map singleOfBits
  int32Data := (r.numbers 5).map int32OfBits
  int64Data := (r.numbers 7).map int64OfBits
  rawData := r.bytes 9

def Attribute.ofRecord (r : Record) : Attribute where
  name := r.text 1
  type := int32OfBits (r.number 20)
  int := int64OfBits (r.number 3)
  float := singleOfBits (r.number 2)
  string := r.bytes 4
  ints := (r.numbers 8).map int64OfBits
  tensor := (r.message? 5).map Tensor.ofRecord

def Node.ofRecord (r : Record) : Node where
  opType := r.text 4
  name := r.text 3
  inputs := r.texts 1
  outputs := r.texts 2
  attributes := (r.messages 5).map Attribute.ofRecord

def Graph.ofRecord (r : Record) : Graph where
  nodes := (r.messages 1).map Node.ofRecord
  initializers := (r.messages 5).map Tensor.ofRecord
  inputs := (r.messages 11).map fun v => v.text 1
  outputs := (r.messages 12).map fun v => v.text 1

/-- The model in the bytes of a file, if they are well formed. -/
def Model.ofBytes? (bs : List UInt8) : Option Model := do
  let r ← Wire.readMessage .model Wire.depthLimit bs
  some { graph := (r.message? 7).map Graph.ofRecord }

end NetPack.Onnx
