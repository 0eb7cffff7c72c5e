import NetPack.Buffer.Table
import NetPack.Schema.Slot
import NetPack.Schema.Union
import NetPack.Text.Utf8

/-!
# What a reader sees

The content of a packed network, field by field. A list, a text or a table that is absent stays absent;
a number that is absent is its default; a byte that has no name is kept. The content is read in the same
way from any kind of table, be it bytes or logical.
-/

namespace NetPack.Schema

open Buffer (TableLike)

/-! ## Content -/

structure PoolContent where
  kernelSize : Option (List UInt32)
  padMode : UInt8
  pads : Option (List UInt32)
  stride : Option (List UInt32)
deriving DecidableEq

structure ConvContent where
  groups : UInt32
  padMode : UInt8
  pads : Option (List UInt32)
  stride : UInt32
deriving DecidableEq

/-- The attributes of an operator, by the table that holds them. -/
inductive AttrsContent
  | averagePool (pool : PoolContent)
  | batchNormalization (epsilon : Single)
  | cast (target : UInt8)
  | clip (min max : Single)
  | concat (dim : Int32)
  | constantOfShape (valueType : UInt8) (int : Option Int32) (float : Option Single)
  | conv (conv : ConvContent)
  | convTranspose (stride : UInt32)
  | gather (axis : Int32)
  | gemm (alpha beta : Single) (transposeA transposeB : Bool)
  | leakyRelu (alpha : Single)
  | maxPool (pool : PoolContent)
  | reduceMean (axes : Option (List Int32)) (keepDims : Bool)
  | resize (mode : UInt8)
  | softmax (axis : Int32)
  | split (axis : Int32) (split : Option (List UInt32))
  | squeeze (axes : Option (List Int32))
  | transpose (perm : Option (List UInt32))
  | unsqueeze (axes : Option (List Int32))
deriving DecidableEq

structure OperatorContent where
  type : UInt8
  attrsType : UInt8
  attrs : Option AttrsContent
  inputs : Option (List UInt32)
  outputs : Option (List UInt32)
deriving DecidableEq

/-- The elements of a constant, by the table that holds them; the list in that table may be absent. -/
structure ConstantContent where
  shape : Option (List UInt32)
  dataType : UInt8
  floatData : Option (Option (List Single))
  intData : Option (Option (List Int32))
deriving DecidableEq

/-- A node, with what is particular to it by the table that holds it. -/
structure NodeContent where
  name : Option String
  dataType : UInt8
  operator : Option OperatorContent
  constant : Option ConstantContent
  isValue : Bool
deriving DecidableEq

structure GraphContent where
  nodes : Option (List NodeContent)
  inputs : Option (List UInt32)
  outputs : Option (List UInt32)
deriving DecidableEq

structure ModelContent where
  schemaVersion : Int32
  graph : Option GraphContent
deriving DecidableEq

/-! ## Fields -/

variable {T : Type} [TableLike T]

def byteAt (t : T) (slot : Nat) : UInt8 :=
  (TableLike.byte? t slot).getD 0

/-- Every byte but zero is true. -/
def boolAt (t : T) (slot : Nat) : Bool :=
  byteAt t slot != 0

def wordAt (t : T) (slot : Nat) : UInt32 :=
  (TableLike.word? t slot).getD 0

def intAt (t : T) (slot : Nat) : Int32 :=
  (wordAt t slot).toInt32

def floatAt (t : T) (slot : Nat) : Single :=
  ⟨wordAt t slot⟩

def unsignedsAt? (t : T) (slot : Nat) : Option (List UInt32) :=
  TableLike.words? t slot

def intsAt? (t : T) (slot : Nat) : Option (List Int32) :=
  (TableLike.words? t slot).map fun ws => ws.map UInt32.toInt32

def floatsAt? (t : T) (slot : Nat) : Option (List Single) :=
  (TableLike.words? t slot).map fun ws => ws.map Single.mk

def textAt? (t : T) (slot : Nat) : Option String :=
  (TableLike.text? t slot).map fun bs => String.ofList (Text.readUtf8 bs)

/-- The table of a union, if the union's kind is the one that is asked for. -/
def member? {α : Type} [DecidableEq α] (t : T) (kind : Option α) (asked : α) (slot : Nat) : Option T :=
  if kind = some asked then TableLike.table? t slot else none

/-! ## Tables -/

def PoolContent.of (t : T) : PoolContent where
  kernelSize := unsignedsAt? t Slot.Pool.kernelSize
  padMode := byteAt t Slot.Pool.padMode
  pads := unsignedsAt? t Slot.Pool.pads
  stride := unsignedsAt? t Slot.Pool.stride

def ConvContent.of (t : T) : ConvContent where
  groups := wordAt t Slot.Conv.groups
  padMode := byteAt t Slot.Conv.padMode
  pads := unsignedsAt? t Slot.Conv.pads
  stride := wordAt t Slot.Conv.stride

/-- The attributes in the table of a kind. -/
def AttrsContent.of (t : T) : AttrsTable → AttrsContent
  | .averagePool => averagePool (.of t)
  | .batchNormalization => batchNormalization (floatAt t Slot.BatchNormalization.epsilon)
  | .cast => cast (byteAt t Slot.Cast.target)
  | .clip => clip (floatAt t Slot.Clip.min) (floatAt t Slot.Clip.max)
  | .concat => concat (intAt t Slot.Concat.dim)
  | .constantOfShape =>
    let valueType := byteAt t Slot.ConstantOfShape.valueType
    let value (asked : ScalarTable) : Option T :=
      member? t (ScalarTable.ofByte? valueType) asked Slot.ConstantOfShape.value
    constantOfShape valueType
      ((value .int).map fun s => intAt s Slot.Scalar.value)
      ((value .float).map fun s => floatAt s Slot.Scalar.value)
  | .conv => conv (.of t)
  | .convTranspose => convTranspose (wordAt t Slot.ConvTranspose.stride)
  | .gather => gather (intAt t Slot.Axis.axis)
  | .gemm =>
    gemm (floatAt t Slot.Gemm.alpha) (floatAt t Slot.Gemm.beta) (boolAt t Slot.Gemm.transposeA)
      (boolAt t Slot.Gemm.transposeB)
  | .leakyRelu => leakyRelu (floatAt t Slot.LeakyRelu.alpha)
  | .maxPool => maxPool (.of t)
  | .reduceMean =>
    reduceMean (intsAt? t Slot.ReduceMean.axes) (boolAt t Slot.ReduceMean.keepDims)
  | .resize => resize (byteAt t Slot.Resize.mode)
  | .softmax => softmax (intAt t Slot.Axis.axis)
  | .split => split (intAt t Slot.Split.axis) (unsignedsAt? t Slot.Split.split)
  | .squeeze => squeeze (intsAt? t Slot.Axes.axes)
  | .transpose => transpose (unsignedsAt? t Slot.Transpose.perm)
  | .unsqueeze => unsqueeze (intsAt? t Slot.Axes.axes)

def OperatorContent.of (t : T) : OperatorContent :=
  let attrsType := byteAt t Slot.Operator.attrsType
  { type := byteAt t Slot.Operator.type
    attrsType
    attrs := do
      let kind ← AttrsTable.ofByte? attrsType
      let attrs ← TableLike.table? t Slot.Operator.attrs
      some (.of attrs kind)
    inputs := unsignedsAt? t Slot.Operator.inputs
    outputs := unsignedsAt? t Slot.Operator.outputs }

def ConstantContent.of (t : T) : ConstantContent :=
  let dataType := byteAt t Slot.Constant.dataType
  let data (asked : DataTable) : Option T :=
    member? t (DataTable.ofByte? dataType) asked Slot.Constant.data
  { shape := unsignedsAt? t Slot.Constant.shape
    dataType
    floatData := (data .float).map fun d => floatsAt? d Slot.Data.data
    intData := (data .int).map fun d => intsAt? d Slot.Data.data }

def NodeContent.of (t : T) : NodeContent :=
  let dataType := byteAt t Slot.Node.dataType
  let data (asked : NodeTable) : Option T :=
    member? t (NodeTable.ofByte? dataType) asked Slot.Node.data
  { name := textAt? t Slot.Node.name
    dataType
    operator := (data .operator).map .of
    constant := (data .constant).map .of
    isValue := (data .value).isSome }

def GraphContent.of (t : T) : GraphContent where
  nodes := (TableLike.tables? t Slot.Graph.nodes).map fun ns => ns.map .of
  inputs := unsignedsAt? t Slot.Graph.inputs
  outputs := unsignedsAt? t Slot.Graph.outputs

def ModelContent.of (t : T) : ModelContent where
  schemaVersion := intAt t Slot.Model.schemaVersion
  graph := (TableLike.table? t Slot.Model.graph).map .of

/-- The content of a buffer. -/
def ModelContent.ofBytes (bs : List UInt8) : ModelContent :=
  .of (Buffer.Table.root bs.toArray)

end NetPack.Schema
