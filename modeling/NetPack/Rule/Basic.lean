import NetPack.Narrow
import NetPack.Onnx.Constant
import NetPack.Reading

/-!
# Parts of attribute rules

What several operators have in common: fixed lengths, integer ranges, padding and strides.
-/

namespace NetPack.Rule

/-- An attribute value that must be an unsigned 32-bit integer. -/
def unsigned (name : String) (v : Int64) : Except Failure UInt32 :=
  match unsigned? v with
  | some n => .ok n
  | none =>
    .error (.unsupportedAttributeValue name (PlainKind.int.text v) "a value in 0..=u32::MAX")

/-- An attribute value that must be a signed 32-bit integer. -/
def signed (name : String) (v : Int64) : Except Failure Int32 :=
  match signed? v with
  | some n => .ok n
  | none =>
    .error (.unsupportedAttributeValue name (PlainKind.int.text v) "a value in the int32 range")

/-- The two values of an attribute. -/
def pairOf (name : String) : List Int64 → Except Failure (Int64 × Int64)
  | [a, b] => .ok (a, b)
  | vs => .error (.invalidAttributeLength name 2 vs.length)

/-- The four values of an attribute. -/
def fourOf (name : String) : List Int64 → Except Failure (Int64 × Int64 × Int64 × Int64)
  | [a, b, c, d] => .ok (a, b, c, d)
  | vs => .error (.invalidAttributeLength name 4 vs.length)

/-- Two unsigned values of an attribute. -/
def unsignedPair (name : String) (vs : List Int64) : Except Failure (UInt32 × UInt32) := do
  let (a, b) ← pairOf name vs
  let a ← unsigned name a
  let b ← unsigned name b
  pure (a, b)

/-- The padding of an image operator. The attribute gives the amounts from the top, the left, the right
and the bottom, in this order; it is not looked at if the output size decides. -/
def padding (n : Onnx.Node) : Reading Padding := do
  let mode ← Reading.withDefault n .string "auto_pad" "NOTSET"
  if mode = "SAME_UPPER" ∨ mode = "SAME_LOWER" then
    pure .same
  else if mode = "NOTSET" then
    let pads ← Reading.withDefault n .ints "pads" [0, 0, 0, 0]
    .ofExcept do
      let (top, left, right, bottom) ← fourOf "pads" pads
      let top ← unsigned "pads" top
      let left ← unsigned "pads" left
      let right ← unsigned "pads" right
      let bottom ← unsigned "pads" bottom
      pure (.fixed top left bottom right)
  else
    .fail (.unsupportedPadMode mode)

/-- The strides of an image operator, which may differ. -/
def stride (n : Onnx.Node) : Reading (UInt32 × UInt32) := do
  let strides ← Reading.withDefault n .ints "strides" [1, 1]
  .ofExcept (unsignedPair "strides" strides)

/-- The one stride of an image operator. -/
def uniformStride (n : Onnx.Node) : Reading UInt32 := do
  let strides ← Reading.withDefault n .ints "strides" [1, 1]
  .ofExcept do
    let (a, b) ← pairOf "strides" strides
    if a = b then unsigned "strides" a else .error (.nonUniformStride strides)

/-- Kernel, padding and strides of a pooling operator. -/
def pool (n : Onnx.Node) : Reading PoolAttrs := do
  let kernel ← Reading.required n .ints "kernel_shape"
  let (kernelHeight, kernelWidth) ← .ofExcept (unsignedPair "kernel_shape" kernel)
  let padding ← padding n
  let (strideHeight, strideWidth) ← stride n
  pure { kernelHeight, kernelWidth, padding, strideHeight, strideWidth }

/-- An axis. -/
def axisOf (name : String) (v : Int64) : Reading Int32 :=
  .ofExcept (signed name v)

/-- A list of axes. -/
def axesOf (name : String) (vs : List Int64) : Reading (List Int32) :=
  .ofExcept (vs.mapM (signed name))

/-- A list of unsigned values. -/
def sizesOf (name : String) (vs : List Int64) : Reading (List UInt32) :=
  .ofExcept (vs.mapM (unsigned name))

end NetPack.Rule
