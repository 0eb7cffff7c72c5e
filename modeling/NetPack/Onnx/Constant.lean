import NetPack.Bytes.LittleEndian
import NetPack.Narrow
import NetPack.Onnx.Attribute

/-!
# Constants from tensors

A tensor makes a constant if its dimensions are in range, its element type is one of seven, its raw
data fill whole elements, and their number is the one that the shape asks for; the first of these
that fails is the failure. Elements in the typed field win over raw data. An operator of type
`Constant` makes the constant of the first of four attributes that it has.
-/

namespace NetPack

/-- The constant of a shape and elements that fit each other. -/
def Constant.of? (name : String) (shape : List UInt32) (elements : Elements) :
    Except Failure Constant :=
  match h : elementCount? shape with
  | none => .error (.invalidTensorData name (.tooManyElements shape))
  | some n =>
    if hn : n = elements.length then .ok ⟨name, shape, elements, hn ▸ h⟩
    else .error (.invalidTensorData name (.wrongCount shape n elements.length))

namespace Onnx

/-- How the integers of an element type are written as raw data. -/
structure IntegerLayout where
  width : Nat
  signed : Bool
deriving DecidableEq, Repr

/-- The integer with the given bits. -/
def IntegerLayout.value (l : IntegerLayout) (bits : Nat) : Int :=
  if l.signed then Int.bmod bits (Nat.pow 256 l.width) else bits

/-- The element types whose typed field is that of the 32-bit integers. -/
def ElementType.integerLayout? : ElementType → Option IntegerLayout
  | uint8 => some ⟨1, false⟩
  | int8 => some ⟨1, true⟩
  | uint16 => some ⟨2, false⟩
  | int16 => some ⟨2, true⟩
  | int32 => some ⟨4, true⟩
  | _ => none

namespace Tensor

/-- The numbers in the raw data of the tensor called `name`. -/
def rawNumbers (t : Tensor) (name : String) (width : Nat) : Except Failure (List Nat) :=
  if t.rawData.length % width = 0 then .ok (LittleEndian.split width t.rawData)
  else .error (.invalidTensorData name (.raggedRawData t.rawData.length width))

def floats (t : Tensor) (name : String) : Except Failure (List Single) :=
  if t.floatData.isEmpty then
    (t.rawNumbers name 4).map fun ns => ns.map fun n => ⟨UInt32.ofNat n⟩
  else .ok t.floatData

def int64s (t : Tensor) (name : String) : Except Failure (List Int64) :=
  if t.int64Data.isEmpty then
    (t.rawNumbers name 8).map fun ns => ns.map Int64.ofNat
  else .ok t.int64Data

def int32s (t : Tensor) (name : String) (l : IntegerLayout) : Except Failure (List Int32) :=
  if t.int32Data.isEmpty then
    (t.rawNumbers name l.width).map fun ns => ns.map fun n => Int32.ofInt (l.value n)
  else .ok t.int32Data

/-- The elements of the tensor called `name`. -/
def elements (t : Tensor) (name : String) : Reported Elements :=
  let unsupported : Reported Elements := .fail (.unsupportedElementType name t.elementType)
  match ElementType.ofNumber? t.elementType.toInt with
  | none => unsupported
  | some .float => .ofExcept ((t.floats name).map .float)
  | some .int64 => do
    let values ← .ofExcept (t.int64s name)
    let cs ← narrow name values
    pure (.int cs)
  | some type =>
    match type.integerLayout? with
    | some l => .ofExcept ((t.int32s name l).map .int)
    | none => unsupported

/-- The dimensions of the tensor called `name`. -/
def shape (t : Tensor) (name : String) : Except Failure (List UInt32) :=
  t.dims.mapM fun d =>
    match unsigned? d with
    | some n => .ok n
    | none => .error (.invalidTensorData name (.dimension d))

/-- The constant that a tensor makes under a name of the caller's choice. -/
def toConstantNamed (t : Tensor) (name : String) : Reported Constant := do
  let shape ← .ofExcept (t.shape name)
  let elements ← t.elements name
  .ofExcept (Constant.of? name shape elements)

/-- The constant that a tensor makes under its own name. -/
def toConstant (t : Tensor) : Reported Constant :=
  t.toConstantNamed t.name

end Tensor

namespace Node

/-- The operator type that makes a constant. -/
def constantType : String :=
  "Constant"

def isConstant (n : Node) : Bool :=
  n.opType == constantType

/-- The constant of a list of integers under a name. -/
def constantOfInts (name : String) (shape : List UInt32) (values : List Int64) :
    Reported Constant := do
  let cs ← narrow name values
  .ofExcept (Constant.of? name shape (.int cs))

/-- The constant that an operator of type `Constant` makes: it is called after the first output, and
its value is that of the first attribute among `value`, `value_float`, `value_int` and `value_ints`
that the operator has. -/
def toConstant (n : Node) : Reported Constant := do
  let name ← .ofOption (.noOutputs n.name) n.outputs.head?
  match ← .ofExcept (n.attribute? .tensor "value") with
  | some t => t.toConstantNamed name
  | none =>
  match ← .ofExcept (n.attribute? .float "value_float") with
  | some v => .ofExcept (Constant.of? name [] (.float [v]))
  | none =>
  match ← .ofExcept (n.attribute? .int "value_int") with
  | some v => constantOfInts name [] [v]
  | none =>
  match ← .ofExcept (n.attribute? .ints "value_ints") with
  | some vs =>
    if vs.length < 0x100000000 then constantOfInts name [UInt32.ofNat vs.length] vs
    else .fail (.invalidTensorData name (.tooManyValues vs.length))
  | none => .fail (.missingRequiredAttribute "value")

end Node

end Onnx

end NetPack
