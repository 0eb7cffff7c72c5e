import NetPack.Single

/-!
# Operators of a packed network

The closed set of operator types that the runtime knows, and the attributes of an operator in the
form in which the runtime wants them. The name of an operator type is the one that ONNX uses, and
its position in `OpType.all` is its code.
-/

namespace NetPack

inductive OpType
  | add | averagePool | batchNormalization | cast | clip | concat | constantOfShape | conv
  | convTranspose | cos | div | equal | erf | expand | gather | gemm | globalAveragePool | identity
  | leakyRelu | less | matMul | maxPool | mul | pad | pow | range | reduceMean | relu | reshape
  | resize | shape | sigmoid | sin | slice | softmax | split | sqrt | squeeze | sub | transpose
  | unsqueeze | where_
deriving DecidableEq, Inhabited, Repr

namespace OpType

def all : List OpType :=
  [add, averagePool, batchNormalization, cast, clip, concat, constantOfShape, conv, convTranspose,
    cos, div, equal, erf, expand, gather, gemm, globalAveragePool, identity, leakyRelu, less, matMul,
    maxPool, mul, pad, pow, range, reduceMean, relu, reshape, resize, shape, sigmoid, sin, slice,
    softmax, split, sqrt, squeeze, sub, transpose, unsqueeze, where_]

def name : OpType → String
  | add => "Add"
  | averagePool => "AveragePool"
  | batchNormalization => "BatchNormalization"
  | cast => "Cast"
  | clip => "Clip"
  | concat => "Concat"
  | constantOfShape => "ConstantOfShape"
  | conv => "Conv"
  | convTranspose => "ConvTranspose"
  | cos => "Cos"
  | div => "Div"
  | equal => "Equal"
  | erf => "Erf"
  | expand => "Expand"
  | gather => "Gather"
  | gemm => "Gemm"
  | globalAveragePool => "GlobalAveragePool"
  | identity => "Identity"
  | leakyRelu => "LeakyRelu"
  | less => "Less"
  | matMul => "MatMul"
  | maxPool => "MaxPool"
  | mul => "Mul"
  | pad => "Pad"
  | pow => "Pow"
  | range => "Range"
  | reduceMean => "ReduceMean"
  | relu => "Relu"
  | reshape => "Reshape"
  | resize => "Resize"
  | shape => "Shape"
  | sigmoid => "Sigmoid"
  | sin => "Sin"
  | slice => "Slice"
  | softmax => "Softmax"
  | split => "Split"
  | sqrt => "Sqrt"
  | squeeze => "Squeeze"
  | sub => "Sub"
  | transpose => "Transpose"
  | unsqueeze => "Unsqueeze"
  | where_ => "Where"

/-- The operator type of a name. -/
def ofName? (s : String) : Option OpType :=
  all.find? fun t => t.name == s

/-- The position among all operator types. -/
def code (t : OpType) : Nat :=
  all.idxOf t

theorem mem_all (t : OpType) : t ∈ all := by
  cases t <;> decide

theorem ofName?_name (t : OpType) : ofName? t.name = some t := by
  cases t <;> decide

theorem name_of_ofName?_eq_some {s : String} {t : OpType} (h : ofName? s = some t) : t.name = s := by
  simpa using List.find?_some h

end OpType

/-- One number, as a constant without dimensions or an attribute holds it. -/
inductive Scalar
  | int (value : Int32)
  | float (value : Single)
deriving DecidableEq, Inhabited, Repr

/-- How an operator pads an image: as the output size demands, or by fixed amounts. -/
inductive Padding
  | same
  | fixed (top left bottom right : UInt32)
deriving DecidableEq, Inhabited, Repr

/-- The two element types of a packed network. -/
inductive NumberType
  | int32 | float
deriving DecidableEq, Inhabited, Repr

inductive ResizeMode
  | nearest | linear
deriving DecidableEq, Inhabited, Repr

/-- What the two kinds of pooling have in common; pairs are height and width. -/
structure PoolAttrs where
  kernelHeight : UInt32
  kernelWidth : UInt32
  padding : Padding
  strideHeight : UInt32
  strideWidth : UInt32
deriving DecidableEq, Inhabited, Repr

/-- The attributes of an operator. Those of an operator whose attributes are all fixed by the
runtime are `none`. -/
inductive Attrs
  | none
  | averagePool (pool : PoolAttrs)
  | batchNormalization (epsilon : Single)
  | cast (target : NumberType)
  | clip (min max : Single)
  | concat (dim : Int32)
  | constantOfShape (value : Scalar)
  | conv (groups : UInt32) (padding : Padding) (stride : UInt32)
  | convTranspose (stride : UInt32)
  | gather (axis : Int32)
  | gemm (alpha beta : Single) (transposeA transposeB : Bool)
  | leakyRelu (alpha : Single)
  | maxPool (pool : PoolAttrs)
  | reduceMean (axes : Option (List Int32)) (keepDims : Bool)
  | resize (mode : ResizeMode)
  | softmax (axis : Int32)
  | split (axis : Int32) (split : List UInt32)
  | squeeze (axes : List Int32)
  | transpose (perm : List UInt32)
  | unsqueeze (axes : List Int32)
deriving DecidableEq, Inhabited, Repr

end NetPack
