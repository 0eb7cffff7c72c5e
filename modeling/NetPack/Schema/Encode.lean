import NetPack.Buffer.Writer
import NetPack.Schema.Slot
import NetPack.Schema.Union
import NetPack.Text.Utf8

/-!
# Networks as objects

The objects that a network is stored as. A number that equals the default of its field is left out, and
so are most lists when they are empty: a reader takes an absent field for the default.
-/

namespace NetPack

open Buffer (Entry Object Objects Fields)

namespace Schema

/-! ## Fields -/

/-- Fields of a table with their slots. -/
abbrev Row := List (Nat × Entry)

def byteField (slot : Nat) (v : UInt8) : Row :=
  if v = 0 then [] else [(slot, .byte v)]

def boolField (slot : Nat) (v : Bool) : Row :=
  byteField slot (if v then 1 else 0)

def wordField (slot : Nat) (v : UInt32) : Row :=
  if v = 0 then [] else [(slot, .word v)]

def intField (slot : Nat) (v : Int32) : Row :=
  wordField slot v.toUInt32

/-- Both zeros equal the default. -/
def floatField (slot : Nat) (v : Single) : Row :=
  if v.isZero then [] else [(slot, .word v.bits)]

def childField (slot : Nat) (o : Object) : Row :=
  [(slot, .child o)]

def table (rows : List Row) : Object :=
  .table (Fields.ofList rows.flatten)

def unsignedList (vs : List UInt32) : Object :=
  .words vs

def intList (vs : List Int32) : Object :=
  .words (vs.map Int32.toUInt32)

def floatList (vs : List Single) : Object :=
  .words (vs.map Single.bits)

/-- A list that is left out when it is empty. -/
def nonemptyField {α : Type} (slot : Nat) (list : List α → Object) (vs : List α) : Row :=
  if vs.isEmpty then [] else childField slot (list vs)

/-! ## Attributes -/

/-- Where padding is fixed or follows the output size. -/
def padModeByte : Padding → UInt8
  | .same => 0
  | .fixed _ _ _ _ => 1

def padsField (slot : Nat) : Padding → Row
  | .same => []
  | .fixed top left bottom right => childField slot (unsignedList [top, left, bottom, right])

def poolObject (p : PoolAttrs) : Object :=
  table [
    childField Slot.Pool.kernelSize (unsignedList [p.kernelHeight, p.kernelWidth]),
    byteField Slot.Pool.padMode (padModeByte p.padding),
    padsField Slot.Pool.pads p.padding,
    childField Slot.Pool.stride (unsignedList [p.strideHeight, p.strideWidth])]

def numberTypeByte : NumberType → UInt8
  | .int32 => 0
  | .float => 1

def resizeModeByte : ResizeMode → UInt8
  | .nearest => 0
  | .linear => 1

def scalarTable : Scalar → ScalarTable
  | .int _ => .int
  | .float _ => .float

def scalarObject : Scalar → Object
  | .int v => table [intField Slot.Scalar.value v]
  | .float v => table [floatField Slot.Scalar.value v]

/-- The table of an operator's attributes, if it has one. -/
def attrsObject? : Attrs → Option Object
  | .none => none
  | .averagePool p => some (poolObject p)
  | .batchNormalization epsilon =>
    some (table [floatField Slot.BatchNormalization.epsilon epsilon])
  | .cast target => some (table [byteField Slot.Cast.target (numberTypeByte target)])
  | .clip min max => some (table [floatField Slot.Clip.min min, floatField Slot.Clip.max max])
  | .concat dim => some (table [intField Slot.Concat.dim dim])
  | .constantOfShape value =>
    some (table [
      byteField Slot.ConstantOfShape.valueType (scalarTable value).byte,
      childField Slot.ConstantOfShape.value (scalarObject value)])
  | .conv groups padding stride =>
    some (table [
      wordField Slot.Conv.groups groups,
      byteField Slot.Conv.padMode (padModeByte padding),
      padsField Slot.Conv.pads padding,
      wordField Slot.Conv.stride stride])
  | .convTranspose stride => some (table [wordField Slot.ConvTranspose.stride stride])
  | .gather axis => some (table [intField Slot.Axis.axis axis])
  | .gemm alpha beta transposeA transposeB =>
    some (table [
      floatField Slot.Gemm.alpha alpha,
      floatField Slot.Gemm.beta beta,
      boolField Slot.Gemm.transposeA transposeA,
      boolField Slot.Gemm.transposeB transposeB])
  | .leakyRelu alpha => some (table [floatField Slot.LeakyRelu.alpha alpha])
  | .maxPool p => some (poolObject p)
  | .reduceMean axes keepDims =>
    some (table [
      nonemptyField Slot.ReduceMean.axes intList (axes.getD []),
      boolField Slot.ReduceMean.keepDims keepDims])
  | .resize mode => some (table [byteField Slot.Resize.mode (resizeModeByte mode)])
  | .softmax axis => some (table [intField Slot.Axis.axis axis])
  | .split axis split =>
    some (table [
      intField Slot.Split.axis axis,
      nonemptyField Slot.Split.split unsignedList split])
  | .squeeze axes => some (table [nonemptyField Slot.Axes.axes intList axes])
  | .transpose perm => some (table [nonemptyField Slot.Transpose.perm unsignedList perm])
  | .unsqueeze axes => some (table [childField Slot.Axes.axes (intList axes)])

/-! ## Nodes -/

/-- The byte that tells which table holds an operator's attributes. -/
def attrsByte (a : Attrs) : UInt8 :=
  match AttrsTable.ofAttrs? a with
  | some t => t.byte
  | none => 0

def operatorObject (o : Operator) : Object :=
  table [
    byteField Slot.Operator.type (UInt8.ofNat o.opType.code),
    byteField Slot.Operator.attrsType (attrsByte o.attrs),
    (attrsObject? o.attrs).elim [] (childField Slot.Operator.attrs),
    childField Slot.Operator.inputs (unsignedList o.inputs),
    childField Slot.Operator.outputs (unsignedList o.outputs)]

def dataTable : Elements → DataTable
  | .float _ => .float
  | .int _ => .int

def dataObject : Elements → Object
  | .float vs => table [childField Slot.Data.data (floatList vs)]
  | .int vs => table [childField Slot.Data.data (intList vs)]

def constantObject (c : Constant) : Object :=
  table [
    childField Slot.Constant.shape (unsignedList c.shape),
    byteField Slot.Constant.dataType (dataTable c.elements).byte,
    childField Slot.Constant.data (dataObject c.elements)]

def nodeTable : Node → NodeTable
  | .operator _ => .operator
  | .constant _ => .constant
  | .value _ => .value

/-- What is particular to a node. -/
def nodeData : Node → Object
  | .operator o => operatorObject o
  | .constant c => constantObject c
  | .value _ => table []

/-- The table of a node; its name is written behind the rest. -/
def nodeObject (n : Node) : Object :=
  table [
    byteField Slot.Node.dataType (nodeTable n).byte,
    childField Slot.Node.data (nodeData n),
    childField Slot.Node.name (.text (Text.utf8 n.name.toList))]

/-- The version of the format. -/
def version : Int32 :=
  1

end Schema

namespace Network

open Schema

def graphObject (n : Network) : Object :=
  table [
    childField Slot.Graph.nodes (.tables (Objects.ofList (n.nodes.map nodeObject))),
    childField Slot.Graph.inputs (unsignedList n.inputs),
    childField Slot.Graph.outputs (unsignedList n.outputs)]

/-- The root object of a network. -/
def toObject (n : Network) : Object :=
  table [
    intField Slot.Model.schemaVersion version,
    childField Slot.Model.graph n.graphObject]

/-- The packed form of a network. -/
def toBytes (n : Network) : List UInt8 :=
  n.toObject.toBytes

end Network

end NetPack
