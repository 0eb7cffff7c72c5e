import NetPack.Rule.Basic

/-!
# The attribute rules

The rule of an operator type reads the attributes that it knows, in a fixed order, refuses the values
that the runtime does not support, and gives the attributes in packed form.
-/

namespace NetPack

/-- A reading of the attributes of an operator among the constants known so far. -/
abbrev Rule := Onnx.Node → ConstantTable → Reading Attrs

namespace Rule

open Reading

/-- Operators whose attributes do not matter. -/
def noAttributes : Rule := fun _ _ =>
  pure .none

def averagePool : Rule := fun n _ => do
  let attrs ← pool n
  expect n .int "ceil_mode" 0
  expect n .int "count_include_pad" 0
  pure (.averagePool attrs)

def batchNormalization : Rule := fun n _ => do
  let epsilon ← withDefault n .float "epsilon" ⟨0x3727c5ac⟩
  pure (.batchNormalization epsilon)

/-- The type that a cast goes to: all integers and truth values become 32-bit integers. -/
def castTarget (v : Int64) : Except Failure NumberType :=
  match Onnx.ElementType.ofNumber? v.toInt with
  | some .float => .ok .float
  | some .bool | some .int32 | some .int64 => .ok .int32
  | _ => .error (.unsupportedCastTarget v)

def cast : Rule := fun n _ => do
  let v ← withDefault n .int "to" 1
  let target ← .ofExcept (castTarget v)
  pure (.cast target)

def clip : Rule := fun n constants => do
  let min ← requiredOrInput n constants .float "min" 1
  let max ← requiredOrInput n constants .float "max" 2
  pure (.clip min max)

def concat : Rule := fun n _ => do
  let dim ← required n .int "axis"
  let dim ← axisOf "axis" dim
  pure (.concat dim)

/-- The one element of a constant. -/
def singleElement (name : String) (c : Constant) : Except Failure Scalar :=
  match c.elements.length, c.elements.get? 0 with
  | 1, some s => .ok s
  | _, _ => .error (.notSingleElement name)

def constantOfShape : Rule := fun n _ => do
  let tensor ← required n .tensor "value"
  let constant ← reported (Onnx.Tensor.toConstant tensor)
  let value ← .ofExcept (singleElement "value" constant)
  pure (.constantOfShape value)

def conv : Rule := fun n _ => do
  let groups ← withDefault n .int "group" 1
  let groups ← .ofExcept (unsigned "group" groups)
  let padding ← padding n
  let stride ← uniformStride n
  expect n .ints "dilations" [1, 1]
  -- The runtime takes the kernel's size from the weights.
  ignore "kernel_shape"
  pure (.conv groups padding stride)

def convTranspose : Rule := fun n _ => do
  let stride ← uniformStride n
  expect n .string "auto_pad" "NOTSET"
  expect n .ints "dilations" [1, 1]
  expect n .int "group" 1
  ignore "kernel_shape"
  expect n .ints "output_padding" [0, 0, 0, 0]
  expect n .ints "pads" [0, 0, 0, 0]
  pure (.convTranspose stride)

def gather : Rule := fun n _ => do
  let a ← withDefault n .int "axis" 0
  let a ← axisOf "axis" a
  pure (.gather a)

def gemm : Rule := fun n _ => do
  let alpha ← withDefault n .float "alpha" .one
  let beta ← withDefault n .float "beta" .one
  let transposeA : Int64 ← withDefault n .int "transA" 0
  let transposeB : Int64 ← withDefault n .int "transB" 0
  pure (.gemm alpha beta (transposeA != 0) (transposeB != 0))

def leakyRelu : Rule := fun n _ => do
  let alpha ← withDefault n .float "alpha" ⟨0x3c23d70a⟩
  pure (.leakyRelu alpha)

def maxPool : Rule := fun n _ => do
  let attrs ← pool n
  expect n .int "ceil_mode" 0
  expect n .ints "dilations" [1, 1]
  expect n .int "storage_order" 0
  pure (.maxPool attrs)

def pad : Rule := fun n _ => do
  expect n .string "mode" "constant"
  pure .none

def reduceMean : Rule := fun n _ => do
  let found ← optional n .ints "axes"
  let axes ← match found with
    | some vs => some <$> axesOf "axes" vs
    | none => pure none
  let keepDims : Int64 ← withDefault n .int "keepdims" 1
  expect n .int "noop_with_empty_axes" 0
  pure (.reduceMean axes (keepDims != 0))

def reshape : Rule := fun n _ => do
  expect n .int "allowzero" 0
  pure .none

/-- The two modes of resizing. -/
def resizeMode (mode : String) : Except Failure ResizeMode :=
  if mode = "nearest" then .ok .nearest
  else if mode = "linear" then .ok .linear
  else .error (.unsupportedAttributeValue "mode" (PlainKind.string.text mode) "nearest, linear")

def resize : Rule := fun n _ => do
  let mode ← withDefault n .string "mode" "nearest"
  let mode ← .ofExcept (resizeMode mode)
  expect n .int "antialias" 0
  -- Height and width are the only axes that can be resized.
  expect n .ints "axes" [2, 3]
  expect n .string "coordinate_transformation_mode" "half_pixel"
  expect n .float "cubic_coeff_a" ⟨0xbf400000⟩
  expect n .int "exclude_outside" 0
  expect n .float "extrapolation_value" .zero
  expect n .string "keep_aspect_ratio_policy" "stretch"
  expect n .string "nearest_mode" "prefer_round_floor"
  pure (.resize mode)

def shape : Rule := fun n _ => do
  expect n .int "end" 0
  expect n .int "start" 0
  pure .none

def softmax : Rule := fun n _ => do
  let a ← withDefault n .int "axis" 0
  let a ← axisOf "axis" a
  pure (.softmax a)

def split : Rule := fun n _ => do
  let a ← withDefault n .int "axis" 0
  let a ← axisOf "axis" a
  let parts ← withDefault n .ints "split" []
  let parts ← sizesOf "split" parts
  expect n .int "num_outputs" 0
  pure (.split a parts)

def squeeze : Rule := fun n _ => do
  let found ← withDefault n .ints "axes" []
  let axes ← axesOf "axes" found
  pure (.squeeze axes)

def transpose : Rule := fun n _ => do
  let found ← withDefault n .ints "perm" []
  let perm ← sizesOf "perm" found
  pure (.transpose perm)

def unsqueeze : Rule := fun n _ => do
  let found ← withDefault n .ints "axes" []
  let axes ← axesOf "axes" found
  pure (.unsqueeze axes)

end Rule

/-- The rule of an operator type. -/
def OpType.rule : OpType → Rule
  | .averagePool => Rule.averagePool
  | .batchNormalization => Rule.batchNormalization
  | .cast => Rule.cast
  | .clip => Rule.clip
  | .concat => Rule.concat
  | .constantOfShape => Rule.constantOfShape
  | .conv => Rule.conv
  | .convTranspose => Rule.convTranspose
  | .gather => Rule.gather
  | .gemm => Rule.gemm
  | .leakyRelu => Rule.leakyRelu
  | .maxPool => Rule.maxPool
  | .pad => Rule.pad
  | .reduceMean => Rule.reduceMean
  | .reshape => Rule.reshape
  | .resize => Rule.resize
  | .shape => Rule.shape
  | .softmax => Rule.softmax
  | .split => Rule.split
  | .squeeze => Rule.squeeze
  | .transpose => Rule.transpose
  | .unsqueeze => Rule.unsqueeze
  | .add | .cos | .div | .equal | .erf | .expand | .globalAveragePool | .identity | .less | .matMul
  | .mul | .pow | .range | .relu | .sigmoid | .sin | .slice | .sqrt | .sub | .where_ =>
    Rule.noAttributes

end NetPack
