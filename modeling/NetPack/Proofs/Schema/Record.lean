import NetPack.Proofs.Schema.Access
import NetPack.Proofs.Text.Utf8

/-!
# Logical tables and their content

A logical table is a partial map from slots to values (`Record`). What there is to see of it is said here field
by field, with no reader in between (`Record.model` and the definitions before it): a number that is absent is
zero, a list, a text or a table that is absent stays absent, and the table of a union counts as one of a kind
exactly if the byte of the union stands for this kind. The bytes of the unions are written out
(`UnionType.kinds`). A reader that is given logical tables finds this content (`ModelContent.of_record`).
-/

namespace NetPack.Schema

open Buffer (TableLike)

/-! ## Kinds of tables by their bytes -/

/-- The tables for the attributes of an operator, by the byte that stands for each. -/
def attrsKinds : List (UInt8 × AttrsTable) := [
  (1, .averagePool), (2, .batchNormalization), (3, .cast), (4, .clip), (5, .concat), (6, .constantOfShape),
  (7, .conv), (8, .convTranspose), (9, .gather), (10, .gemm), (11, .leakyRelu), (12, .maxPool),
  (13, .reduceMean), (14, .resize), (15, .softmax), (16, .split), (17, .squeeze), (18, .transpose),
  (19, .unsqueeze)]

/-- The tables of a union, by the byte that stands for each. -/
def UnionType.kinds : UnionType → List (UInt8 × TableType)
  | node => [(1, .operator), (2, .constant), (3, .value)]
  | elements => [(1, .elements .float), (2, .elements .int)]
  | scalar => [(1, .scalar .int), (2, .scalar .float)]
  | attrs => attrsKinds.map fun k => (k.1, .attrs k.2)

theorem forall_byte {P : UInt8 → Prop} (h : ∀ n < 256, P (UInt8.ofNat n)) (c : UInt8) : P c := by
  have hc := h c.toNat c.toNat_lt
  rwa [UInt8.ofNat_toNat] at hc

theorem ofByte?_eq_lookup (c : UInt8) : AttrsTable.ofByte? c = attrsKinds.lookup c := by
  revert c
  exact forall_byte (by decide +kernel)

/-- A reader tells the kinds by the same bytes. -/
theorem UnionType.member?_eq_lookup (u : UnionType) (c : UInt8) : u.member? c = u.kinds.lookup c := by
  revert c
  refine forall_byte ?_
  cases u <;> decide +kernel

/-! ## Logical tables -/

/-- What a slot of a logical table holds. -/
inductive Value
  | byte (v : UInt8)
  | word (v : UInt32)
  | text (s : String)
  | words (ws : List UInt32)
  | table (slots : Nat → Option Value)
  | tables (items : List (Nat → Option Value))

/-- A logical table: a partial map from slots to values. -/
def Record : Type :=
  Nat → Option Value

namespace Record

/-- The logical table that holds the values of a list. -/
def ofList (l : List (Nat × Value)) : Record :=
  fun s => l.lookup s

variable (r : Record)

def byte? (s : Nat) : Option UInt8 :=
  match r s with
  | some (.byte v) => some v
  | _ => none

def word? (s : Nat) : Option UInt32 :=
  match r s with
  | some (.word v) => some v
  | _ => none

def text? (s : Nat) : Option String :=
  match r s with
  | some (.text t) => some t
  | _ => none

def words? (s : Nat) : Option (List UInt32) :=
  match r s with
  | some (.words ws) => some ws
  | _ => none

def table? (s : Nat) : Option Record :=
  match r s with
  | some (.table r') => some r'
  | _ => none

def tables? (s : Nat) : Option (List Record) :=
  match r s with
  | some (.tables rs) => some rs
  | _ => none

def byte (s : Nat) : UInt8 :=
  (r.byte? s).getD 0

def word (s : Nat) : UInt32 :=
  (r.word? s).getD 0

/-- The table of a union, if the byte in a slot stands for the kind that is asked for. -/
def member? (u : UnionType) (kind s : Nat) (asked : TableType) : Option Record :=
  if u.kinds.lookup (r.byte kind) = some asked then r.table? s else none

/-! ## Contents -/

def pool : PoolContent where
  kernelSize := r.words? Slot.Pool.kernelSize
  padMode := r.byte Slot.Pool.padMode
  pads := r.words? Slot.Pool.pads
  stride := r.words? Slot.Pool.stride

def conv : ConvContent where
  groups := r.word Slot.Conv.groups
  padMode := r.byte Slot.Conv.padMode
  pads := r.words? Slot.Conv.pads
  stride := r.word Slot.Conv.stride

/-- The number in the table of a scalar. -/
def scalar? (asked : ScalarTable) : Option UInt32 :=
  (r.member? .scalar Slot.ConstantOfShape.valueType Slot.ConstantOfShape.value (.scalar asked)).map
    fun v => v.word Slot.Scalar.value

/-- The content of a table for attributes of a kind. -/
def attrs : AttrsTable → AttrsContent
  | .averagePool => .averagePool r.pool
  | .batchNormalization => .batchNormalization ⟨r.word Slot.BatchNormalization.epsilon⟩
  | .cast => .cast (r.byte Slot.Cast.target)
  | .clip => .clip ⟨r.word Slot.Clip.min⟩ ⟨r.word Slot.Clip.max⟩
  | .concat => .concat (r.word Slot.Concat.dim).toInt32
  | .constantOfShape =>
    .constantOfShape (r.byte Slot.ConstantOfShape.valueType) ((r.scalar? .int).map UInt32.toInt32)
      ((r.scalar? .float).map Single.mk)
  | .conv => .conv r.conv
  | .convTranspose => .convTranspose (r.word Slot.ConvTranspose.stride)
  | .gather => .gather (r.word Slot.Axis.axis).toInt32
  | .gemm =>
    .gemm ⟨r.word Slot.Gemm.alpha⟩ ⟨r.word Slot.Gemm.beta⟩ (r.byte Slot.Gemm.transposeA != 0)
      (r.byte Slot.Gemm.transposeB != 0)
  | .leakyRelu => .leakyRelu ⟨r.word Slot.LeakyRelu.alpha⟩
  | .maxPool => .maxPool r.pool
  | .reduceMean =>
    .reduceMean ((r.words? Slot.ReduceMean.axes).map fun ws => ws.map UInt32.toInt32)
      (r.byte Slot.ReduceMean.keepDims != 0)
  | .resize => .resize (r.byte Slot.Resize.mode)
  | .softmax => .softmax (r.word Slot.Axis.axis).toInt32
  | .split => .split (r.word Slot.Split.axis).toInt32 (r.words? Slot.Split.split)
  | .squeeze => .squeeze ((r.words? Slot.Axes.axes).map fun ws => ws.map UInt32.toInt32)
  | .transpose => .transpose (r.words? Slot.Transpose.perm)
  | .unsqueeze => .unsqueeze ((r.words? Slot.Axes.axes).map fun ws => ws.map UInt32.toInt32)

def operator : OperatorContent where
  type := r.byte Slot.Operator.type
  attrsType := r.byte Slot.Operator.attrsType
  attrs := do
    let kind ← attrsKinds.lookup (r.byte Slot.Operator.attrsType)
    let v ← r.table? Slot.Operator.attrs
    some (v.attrs kind)
  inputs := r.words? Slot.Operator.inputs
  outputs := r.words? Slot.Operator.outputs

/-- The words in the table of a constant's elements. -/
def elements? (asked : DataTable) : Option (Option (List UInt32)) :=
  (r.member? .elements Slot.Constant.dataType Slot.Constant.data (.elements asked)).map
    fun v => v.words? Slot.Data.data

def constant : ConstantContent where
  shape := r.words? Slot.Constant.shape
  dataType := r.byte Slot.Constant.dataType
  floatData := (r.elements? .float).map fun ws? => ws?.map fun ws => ws.map Single.mk
  intData := (r.elements? .int).map fun ws? => ws?.map fun ws => ws.map UInt32.toInt32

def node : NodeContent where
  name := r.text? Slot.Node.name
  dataType := r.byte Slot.Node.dataType
  operator := (r.member? .node Slot.Node.dataType Slot.Node.data .operator).map operator
  constant := (r.member? .node Slot.Node.dataType Slot.Node.data .constant).map constant
  isValue := (r.member? .node Slot.Node.dataType Slot.Node.data .value).isSome

def graph : GraphContent where
  nodes := (r.tables? Slot.Graph.nodes).map fun rs => rs.map node
  inputs := r.words? Slot.Graph.inputs
  outputs := r.words? Slot.Graph.outputs

def model : ModelContent where
  schemaVersion := (r.word Slot.Model.schemaVersion).toInt32
  graph := (r.table? Slot.Model.graph).map graph

end Record

/-! ## Logical tables as a reader takes them -/

instance : TableLike Record where
  byte? := Record.byte?
  word? := Record.word?
  text? r s := (r.text? s).map fun t => Text.utf8 t.toList
  words? := Record.words?
  table? := Record.table?
  tables? := Record.tables?

section Contents

variable (r : Record)

theorem textAt?_record (s : Nat) : textAt? r s = r.text? s := by
  have hread : (fun bs => String.ofList (Text.readUtf8 bs)) ∘ (fun t : String => Text.utf8 t.toList) = id := by
    funext t
    show String.ofList (Text.readUtf8 (Text.utf8 t.toList)) = t
    rw [Text.readUtf8_utf8, String.ofList_toList]
  show ((r.text? s).map fun t => Text.utf8 t.toList).map _ = _
  rw [Option.map_map, hread, Option.map_id_apply]

theorem table?_record (u : UnionType) (kind s : Nat) (asked : TableType) :
    u.table? r kind asked s = r.member? u kind s asked := by
  rw [UnionType.table?, UnionType.member?_eq_lookup]
  rfl

theorem constantOfShape_record : AttrsContent.of r .constantOfShape = r.attrs .constantOfShape := by
  rw [constantOfShape_content, table?_record, table?_record, Record.attrs, Record.scalar?, Record.scalar?,
    Option.map_map, Option.map_map]
  rfl

theorem attrs_record (a : AttrsTable) : AttrsContent.of r a = r.attrs a := by
  cases a with
  | constantOfShape => exact constantOfShape_record r
  | _ => rfl

theorem operator_record : OperatorContent.of r = r.operator := by
  have hattrs : AttrsContent.of (T := Record) = Record.attrs := funext fun v => funext (attrs_record v)
  unfold OperatorContent.of
  simp only [ofByte?_eq_lookup, hattrs]
  rfl

theorem constant_record : ConstantContent.of r = r.constant := by
  rw [constant_content, table?_record, table?_record, Record.constant, Record.elements?, Record.elements?,
    Option.map_map, Option.map_map]
  rfl

theorem node_record : NodeContent.of r = r.node := by
  have hoperator : OperatorContent.of (T := Record) = Record.operator := funext operator_record
  have hconstant : ConstantContent.of (T := Record) = Record.constant := funext constant_record
  rw [node_content, textAt?_record, table?_record, table?_record, table?_record, hoperator, hconstant]
  rfl

/-- A reader of a logical model finds its content. -/
theorem ModelContent.of_record : ModelContent.of r = r.model := by
  have hnode : NodeContent.of (T := Record) = Record.node := funext node_record
  have hgraph : GraphContent.of (T := Record) = Record.graph := by
    funext g
    rw [GraphContent.of, hnode]
    rfl
  rw [ModelContent.of, hgraph]
  rfl

end Contents

end NetPack.Schema
