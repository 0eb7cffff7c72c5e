import NetPack.Network.Basic

/-!
# The unions of the format

A field that may hold one of several tables is a union: one slot tells which table it is, and the slot
behind it holds the table. The byte in the first slot is one more than the position of the table in the
union, since zero stands for no table.
-/

namespace NetPack.Schema

/-- The table at a byte of a union. -/
def memberAt? {α : Type} (members : List α) (b : UInt8) : Option α :=
  if b = 0 then none else members[b.toNat - 1]?

/-- The byte of a table of a union. -/
def byteOfMember {α : Type} [BEq α] (members : List α) (a : α) : UInt8 :=
  UInt8.ofNat (members.idxOf a + 1)

/-- What is particular to a node. -/
inductive NodeTable
  | operator | constant | value
deriving DecidableEq, Inhabited, Repr

namespace NodeTable

def all : List NodeTable :=
  [operator, constant, value]

def name : NodeTable → String
  | operator => "OperatorNode"
  | constant => "ConstantNode"
  | value => "ValueNode"

def byte : NodeTable → UInt8 :=
  byteOfMember all

def ofByte? : UInt8 → Option NodeTable :=
  memberAt? all

theorem ofByte?_byte (t : NodeTable) : ofByte? t.byte = some t := by
  cases t <;> rfl

end NodeTable

/-- The elements of a constant. -/
inductive DataTable
  | float | int
deriving DecidableEq, Inhabited, Repr

namespace DataTable

def all : List DataTable :=
  [float, int]

def name : DataTable → String
  | float => "FloatData"
  | int => "IntData"

def byte : DataTable → UInt8 :=
  byteOfMember all

def ofByte? : UInt8 → Option DataTable :=
  memberAt? all

theorem ofByte?_byte (t : DataTable) : ofByte? t.byte = some t := by
  cases t <;> rfl

end DataTable

/-- A single number. -/
inductive ScalarTable
  | int | float
deriving DecidableEq, Inhabited, Repr

namespace ScalarTable

def all : List ScalarTable :=
  [int, float]

def name : ScalarTable → String
  | int => "IntScalar"
  | float => "FloatScalar"

def byte : ScalarTable → UInt8 :=
  byteOfMember all

def ofByte? : UInt8 → Option ScalarTable :=
  memberAt? all

theorem ofByte?_byte (t : ScalarTable) : ofByte? t.byte = some t := by
  cases t <;> rfl

end ScalarTable

/-- The attributes of an operator. -/
inductive AttrsTable
  | averagePool | batchNormalization | cast | clip | concat | constantOfShape | conv | convTranspose
  | gather | gemm | leakyRelu | maxPool | reduceMean | resize | softmax | split | squeeze | transpose
  | unsqueeze
deriving DecidableEq, Inhabited, Repr

namespace AttrsTable

def all : List AttrsTable :=
  [averagePool, batchNormalization, cast, clip, concat, constantOfShape, conv, convTranspose, gather,
    gemm, leakyRelu, maxPool, reduceMean, resize, softmax, split, squeeze, transpose, unsqueeze]

def name : AttrsTable → String
  | averagePool => "AveragePoolAttrs"
  | batchNormalization => "BatchNormalizationAttrs"
  | cast => "CastAttrs"
  | clip => "ClipAttrs"
  | concat => "ConcatAttrs"
  | constantOfShape => "ConstantOfShapeAttrs"
  | conv => "ConvAttrs"
  | convTranspose => "ConvTransposeAttrs"
  | gather => "GatherAttrs"
  | gemm => "GemmAttrs"
  | leakyRelu => "LeakyReluAttrs"
  | maxPool => "MaxPoolAttrs"
  | reduceMean => "ReduceMeanAttrs"
  | resize => "ResizeAttrs"
  | softmax => "SoftmaxAttrs"
  | split => "SplitAttrs"
  | squeeze => "SqueezeAttrs"
  | transpose => "TransposeAttrs"
  | unsqueeze => "UnsqueezeAttrs"

def byte : AttrsTable → UInt8 :=
  byteOfMember all

def ofByte? : UInt8 → Option AttrsTable :=
  memberAt? all

theorem ofByte?_byte (t : AttrsTable) : ofByte? t.byte = some t := by
  cases t <;> rfl

/-- The table that an operator's attributes are stored in. -/
def ofAttrs? : Attrs → Option AttrsTable
  | .none => none
  | .averagePool _ => some averagePool
  | .batchNormalization _ => some batchNormalization
  | .cast _ => some cast
  | .clip _ _ => some clip
  | .concat _ => some concat
  | .constantOfShape _ => some constantOfShape
  | .conv _ _ _ => some conv
  | .convTranspose _ => some convTranspose
  | .gather _ => some gather
  | .gemm _ _ _ _ => some gemm
  | .leakyRelu _ => some leakyRelu
  | .maxPool _ => some maxPool
  | .reduceMean _ _ => some reduceMean
  | .resize _ => some resize
  | .softmax _ => some softmax
  | .split _ _ => some split
  | .squeeze _ => some squeeze
  | .transpose _ => some transpose
  | .unsqueeze _ => some unsqueeze

end AttrsTable

end NetPack.Schema
