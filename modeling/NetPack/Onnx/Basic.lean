import NetPack.Single

/-!
# Networks in ONNX form

The parts of an ONNX model that decide how it is packed. A number that the format declares as an
enumeration (the element type of a tensor, the type of an attribute) is kept as it came, since a
file may hold any.
-/

namespace NetPack.Onnx

/-- A tensor: its elements stand in the field of their type or, little-endian, in `rawData`. -/
structure Tensor where
  name : String := ""
  dims : List Int64 := []
  elementType : Int32 := 0
  floatData : List Single := []
  int32Data : List Int32 := []
  int64Data : List Int64 := []
  rawData : List UInt8 := []
deriving DecidableEq, Inhabited

/-- A named attribute of an operator: its type says which of the fields counts. -/
structure Attribute where
  name : String := ""
  type : Int32 := 0
  int : Int64 := 0
  float : Single := .zero
  string : List UInt8 := []
  ints : List Int64 := []
  tensor : Option Tensor := none
deriving DecidableEq, Inhabited

/-- An operator with the names of the tensors that it reads and writes. -/
structure Node where
  opType : String := ""
  name : String := ""
  inputs : List String := []
  outputs : List String := []
  attributes : List Attribute := []
deriving DecidableEq, Inhabited

structure Graph where
  nodes : List Node := []
  initializers : List Tensor := []
  inputs : List String := []
  outputs : List String := []
deriving DecidableEq, Inhabited

structure Model where
  graph : Option Graph := none
deriving DecidableEq, Inhabited

/-- The element types of tensors, in the order of their numbers. -/
inductive ElementType
  | undefined | float | uint8 | int8 | uint16 | int16 | int32 | int64 | string | bool | float16
  | double | uint32 | uint64 | complex64 | complex128 | bfloat16
deriving DecidableEq, Inhabited, Repr

namespace ElementType

def all : List ElementType :=
  [undefined, float, uint8, int8, uint16, int16, int32, int64, string, bool, float16, double, uint32,
    uint64, complex64, complex128, bfloat16]

/-- The element type of a number. -/
def ofNumber? (n : Int) : Option ElementType :=
  if n < 0 then none else all[n.toNat]?

/-- The number of an element type. -/
def number (t : ElementType) : Nat :=
  all.idxOf t

theorem ofNumber?_number (t : ElementType) : ofNumber? t.number = some t := by
  cases t <;> rfl

end ElementType

/-- The types of attributes, in the order of their numbers. -/
inductive AttributeType
  | undefined | float | int | string | tensor | graph | floats | ints | strings | tensors | graphs
  | sparseTensor | sparseTensors | typeProto | typeProtos
deriving DecidableEq, Inhabited, Repr

namespace AttributeType

def all : List AttributeType :=
  [undefined, float, int, string, tensor, graph, floats, ints, strings, tensors, graphs,
    sparseTensor, sparseTensors, typeProto, typeProtos]

/-- The attribute type of a number. -/
def ofNumber? (n : Int) : Option AttributeType :=
  if n < 0 then none else all[n.toNat]?

/-- The number of an attribute type. -/
def number (t : AttributeType) : Nat :=
  all.idxOf t

theorem ofNumber?_number (t : AttributeType) : ofNumber? t.number = some t := by
  cases t <;> rfl

/-- The word for an attribute type in messages. -/
def word : AttributeType → String
  | undefined => "undefined"
  | float => "float"
  | int => "int"
  | string => "string"
  | tensor => "tensor"
  | graph => "graph"
  | floats => "floats"
  | ints => "ints"
  | strings => "strings"
  | tensors => "tensors"
  | graphs => "graphs"
  | sparseTensor => "sparsetensor"
  | sparseTensors => "sparsetensors"
  | typeProto => "typeproto"
  | typeProtos => "typeprotos"

end AttributeType

end NetPack.Onnx
