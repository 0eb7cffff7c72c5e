import NetPack.Onnx.Basic

/-!
# A sample network

A small image classifier of any depth: blocks of a convolution and a rectifier, then pooling and a
fully connected layer. It serves for trying out the packing at any size.
-/

namespace NetPack.Sample

open Onnx (ElementType AttributeType)

def intAttribute (name : String) (v : Int64) : Onnx.Attribute :=
  { name, type := Int32.ofNat AttributeType.int.number, int := v }

def intsAttribute (name : String) (vs : List Int64) : Onnx.Attribute :=
  { name, type := Int32.ofNat AttributeType.ints.number, ints := vs }

def floatTensor (name : String) (dims : List Nat) (v : Single) (count : Nat) : Onnx.Tensor :=
  { name, dims := dims.map Int64.ofNat, elementType := Int32.ofNat ElementType.float.number,
    floatData := List.replicate count v }

def int64Tensor (name : String) (dims : List Nat) (vs : List Int64) : Onnx.Tensor :=
  { name, dims := dims.map Int64.ofNat, elementType := Int32.ofNat ElementType.int64.number,
    int64Data := vs }

/-- A name with the number of its block. -/
def numbered (stem : String) (i : Nat) (part : String) : String :=
  stem ++ toString i ++ part

/-- The number 0.01. -/
def hundredth : Single :=
  ⟨0x3c23d70a⟩

/-- The number 0.1. -/
def tenth : Single :=
  ⟨0x3dcccccd⟩

/-- The weights and the biases of a block. -/
def blockTensors (channels i : Nat) : List Onnx.Tensor :=
  [floatTensor (numbered "conv" i ".weight") [channels, channels, 3, 3] hundredth
      (channels * channels * 9),
    floatTensor (numbered "conv" i ".bias") [channels] .zero channels]

/-- What a block computes, which the next one reads. -/
def blockOutput (i : Nat) : String :=
  numbered "relu" i ".out"

/-- What a block reads. -/
def blockInput : Nat → String
  | 0 => "input"
  | i + 1 => blockOutput i

def blockNodes (i : Nat) : List Onnx.Node :=
  let weight := numbered "conv" i ".weight"
  let bias := numbered "conv" i ".bias"
  let sum := numbered "conv" i ".out"
  [{ opType := "Conv", name := numbered "conv" i "", inputs := [blockInput i, weight, bias],
      outputs := [sum],
      attributes := [intsAttribute "kernel_shape" [3, 3], intsAttribute "pads" [1, 1, 1, 1],
        intsAttribute "strides" [1, 1]] },
    { opType := "Relu", name := numbered "relu" i "", inputs := [sum], outputs := [blockOutput i] }]

def tailTensors (channels : Nat) : List Onnx.Tensor :=
  [int64Tensor "flat_shape" [2] [1, -1],
    floatTensor "fc.weight" [10, channels] tenth (10 * channels)]

def tailNodes (depth : Nat) : List Onnx.Node :=
  [{ opType := "GlobalAveragePool", name := "pool", inputs := [blockInput depth],
      outputs := ["pooled"] },
    { opType := "Reshape", name := "flatten", inputs := ["pooled", "flat_shape"],
      outputs := ["flat"] },
    { opType := "Gemm", name := "fc", inputs := ["flat", "fc.weight"], outputs := ["logits"],
      attributes := [intAttribute "transB" 1] },
    { opType := "Softmax", name := "softmax", inputs := ["logits"], outputs := ["output"],
      attributes := [intAttribute "axis" 1] }]

/-- The network of a depth, with as many channels between its blocks as are asked for. -/
def graph (depth channels : Nat) : Onnx.Graph :=
  { nodes := (List.range depth).flatMap blockNodes ++ tailNodes depth
    initializers := (List.range depth).flatMap (blockTensors channels) ++ tailTensors channels
    inputs := ["input"]
    outputs := ["output"] }

def model (depth channels : Nat) : Onnx.Model :=
  { graph := some (graph depth channels) }

end NetPack.Sample
