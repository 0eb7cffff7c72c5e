import NetPack.Proofs.Buffer.Layout
import NetPack.Schema.Content

/-!
# The tables of the format and the ways through them

The format has a fixed number of kinds of tables (`TableType`), each with a list of fields by slot
(`TableType.fields`). An accessor goes from a table to a table in one of its fields, to an element of a
vector of tables, or to the table of a union whose kind is known (`Access`), and a chain of accessors
reaches a table of a kind (`Reaches`). All this makes sense for any kind of table, be it bytes or
logical; a logical table is in order if each field holds what its type says (`Typed`), in it and in
every table that is reached from it (`WellTyped`).
-/

namespace NetPack.Schema

open Buffer (Entry Fields Object Objects TableLike mem_of_lookup)

/-! ## Kinds of tables -/

inductive TableType
  | model | graph | node | operator | constant | value
  | elements (t : DataTable)
  | attrs (t : AttrsTable)
  | scalar (t : ScalarTable)
deriving DecidableEq

inductive UnionType
  | node | elements | attrs | scalar
deriving DecidableEq

def NodeTable.tableType : NodeTable → TableType
  | operator => .operator
  | constant => .constant
  | value => .value

/-- The kind of table in a union by the byte that tells it. -/
def UnionType.member? : UnionType → UInt8 → Option TableType
  | node, b => (NodeTable.ofByte? b).map NodeTable.tableType
  | elements, b => (DataTable.ofByte? b).map TableType.elements
  | attrs, b => (AttrsTable.ofByte? b).map TableType.attrs
  | scalar, b => (ScalarTable.ofByte? b).map TableType.scalar

/-- What a field holds. The table of a union goes with the slot of the byte that tells its kind. -/
inductive FieldType
  | byte | word | text | words
  | table (t : TableType)
  | tables (t : TableType)
  | member (kind : Nat) (u : UnionType)
deriving DecidableEq

/-- The bytes that a field takes in its table. -/
def FieldType.width : FieldType → Nat
  | byte => 1
  | _ => 4

def AttrsTable.fields : AttrsTable → List (Nat × FieldType)
  | averagePool | maxPool => [
    (Slot.Pool.kernelSize, .words), (Slot.Pool.padMode, .byte), (Slot.Pool.pads, .words),
    (Slot.Pool.stride, .words)]
  | batchNormalization => [(Slot.BatchNormalization.epsilon, .word)]
  | cast => [(Slot.Cast.target, .byte)]
  | clip => [(Slot.Clip.min, .word), (Slot.Clip.max, .word)]
  | concat => [(Slot.Concat.dim, .word)]
  | constantOfShape => [
    (Slot.ConstantOfShape.valueType, .byte),
    (Slot.ConstantOfShape.value, .member Slot.ConstantOfShape.valueType .scalar)]
  | conv => [
    (Slot.Conv.groups, .word), (Slot.Conv.padMode, .byte), (Slot.Conv.pads, .words),
    (Slot.Conv.stride, .word)]
  | convTranspose => [(Slot.ConvTranspose.stride, .word)]
  | gather | softmax => [(Slot.Axis.axis, .word)]
  | gemm => [
    (Slot.Gemm.alpha, .word), (Slot.Gemm.beta, .word), (Slot.Gemm.transposeA, .byte),
    (Slot.Gemm.transposeB, .byte)]
  | leakyRelu => [(Slot.LeakyRelu.alpha, .word)]
  | reduceMean => [(Slot.ReduceMean.axes, .words), (Slot.ReduceMean.keepDims, .byte)]
  | resize => [(Slot.Resize.mode, .byte)]
  | split => [(Slot.Split.axis, .word), (Slot.Split.split, .words)]
  | squeeze | unsqueeze => [(Slot.Axes.axes, .words)]
  | transpose => [(Slot.Transpose.perm, .words)]

/-- The fields of a kind of table. -/
def TableType.fields : TableType → List (Nat × FieldType)
  | model => [(Slot.Model.schemaVersion, .word), (Slot.Model.graph, .table graph)]
  | graph => [
    (Slot.Graph.nodes, .tables node), (Slot.Graph.inputs, .words), (Slot.Graph.outputs, .words)]
  | node => [
    (Slot.Node.name, .text), (Slot.Node.dataType, .byte),
    (Slot.Node.data, .member Slot.Node.dataType .node)]
  | operator => [
    (Slot.Operator.type, .byte), (Slot.Operator.attrsType, .byte),
    (Slot.Operator.attrs, .member Slot.Operator.attrsType .attrs),
    (Slot.Operator.inputs, .words), (Slot.Operator.outputs, .words)]
  | constant => [
    (Slot.Constant.shape, .words), (Slot.Constant.dataType, .byte),
    (Slot.Constant.data, .member Slot.Constant.dataType .elements)]
  | value => []
  | elements _ => [(Slot.Data.data, .words)]
  | attrs t => t.fields
  | scalar _ => [(Slot.Scalar.value, .word)]

/-- The type of the field in a slot, if the kind of table has one. -/
def TableType.field? (t : TableType) (slot : Nat) : Option FieldType :=
  t.fields.lookup slot

/-- The slot that tells the kind of a union. -/
def FieldType.kind? : FieldType → Option Nat
  | member kind _ => some kind
  | _ => none

theorem field?_kind {t : TableType} {s kind : Nat} {u : UnionType}
    (h : t.field? s = some (.member kind u)) : t.field? kind = some .byte := by
  have hall : ∀ p ∈ t.fields, ∀ k ∈ p.2.kind?, t.field? k = some .byte := by
    cases t with
    | attrs a => cases a <;> decide
    | elements d => cases d <;> decide
    | scalar c => cases c <;> decide
    | _ => decide
  exact hall _ (mem_of_lookup h) kind rfl

/-! ## Accessors -/

section Access

variable {T : Type} [TableLike T]

/-- The accessor of a union for one of its tables. -/
def UnionType.table? (u : UnionType) (x : T) (kind : Nat) (asked : TableType) (slot : Nat) : Option T :=
  Schema.member? x (u.member? (byteAt x kind)) asked slot

/-- An accessor of a table of one kind gives a table of another. -/
inductive Access (t : TableType) (x : T) : TableType → T → Prop
  | table {s : Nat} {t' : TableType} {y : T} (field : t.field? s = some (.table t'))
      (found : TableLike.table? x s = some y) : Access t x t' y
  | element {s : Nat} {t' : TableType} {ys : List T} {y : T}
      (field : t.field? s = some (.tables t')) (found : TableLike.tables? x s = some ys)
      (mem : y ∈ ys) : Access t x t' y
  | member {s kind : Nat} {u : UnionType} {t' : TableType} {y : T}
      (field : t.field? s = some (.member kind u)) (known : u.member? (byteAt x kind) = some t')
      (found : TableLike.table? x s = some y) : Access t x t' y

/-- A chain of accessors gives a table. -/
inductive Reaches (t : TableType) (x : T) : TableType → T → Prop
  | refl : Reaches t x t x
  | tail {t' t'' : TableType} {y z : T} (chain : Reaches t x t' y) (last : Access t' y t'' z) :
      Reaches t x t'' z

/-- The names of the kinds do not matter when a union is asked for one. -/
theorem member?_map {α β : Type} [DecidableEq α] [DecidableEq β] {g : α → β} (hg : Function.Injective g)
    (x : T) (known : Option α) (asked : α) (slot : Nat) :
    member? x (known.map g) (g asked) slot = member? x known asked slot := by
  have hiff : known.map g = some (g asked) ↔ known = some asked := by
    rw [← Option.map_some, (Option.map_injective hg).eq_iff]
  unfold member?
  simp only [hiff]

namespace UnionType

variable (x : T) (kind slot : Nat)

theorem table?_node (asked : NodeTable) : node.table? x kind asked.tableType slot
    = Schema.member? x (NodeTable.ofByte? (byteAt x kind)) asked slot := by
  refine member?_map (fun a b h => ?_) x _ asked slot
  cases a <;> cases b <;> first | rfl | cases h

theorem table?_elements (asked : DataTable) : elements.table? x kind (.elements asked) slot
    = Schema.member? x (DataTable.ofByte? (byteAt x kind)) asked slot :=
  member?_map (fun _ _ h => TableType.elements.inj h) x _ asked slot

theorem table?_attrs (asked : AttrsTable) : attrs.table? x kind (.attrs asked) slot
    = Schema.member? x (AttrsTable.ofByte? (byteAt x kind)) asked slot :=
  member?_map (fun _ _ h => TableType.attrs.inj h) x _ asked slot

theorem table?_scalar (asked : ScalarTable) : scalar.table? x kind (.scalar asked) slot
    = Schema.member? x (ScalarTable.ofByte? (byteAt x kind)) asked slot :=
  member?_map (fun _ _ h => TableType.scalar.inj h) x _ asked slot

end UnionType

/-! ### Unions in the content -/

theorem constantOfShape_content (x : T) : AttrsContent.of x .constantOfShape = .constantOfShape
    (byteAt x Slot.ConstantOfShape.valueType)
    ((UnionType.scalar.table? x Slot.ConstantOfShape.valueType (.scalar .int) Slot.ConstantOfShape.value).map
      fun y => intAt y Slot.Scalar.value)
    ((UnionType.scalar.table? x Slot.ConstantOfShape.valueType (.scalar .float) Slot.ConstantOfShape.value).map
      fun y => floatAt y Slot.Scalar.value) := by
  rw [UnionType.table?_scalar, UnionType.table?_scalar]
  rfl

theorem operator_content (x : T) : OperatorContent.of x = {
    type := byteAt x Slot.Operator.type
    attrsType := byteAt x Slot.Operator.attrsType
    attrs := (AttrsTable.ofByte? (byteAt x Slot.Operator.attrsType)).bind fun a =>
      (UnionType.attrs.table? x Slot.Operator.attrsType (.attrs a) Slot.Operator.attrs).map fun y => .of y a
    inputs := unsignedsAt? x Slot.Operator.inputs
    outputs := unsignedsAt? x Slot.Operator.outputs } := by
  unfold OperatorContent.of
  cases hk : AttrsTable.ofByte? (byteAt x Slot.Operator.attrsType) with
  | none => simp only [hk, Option.bind_eq_bind, Option.bind_none]
  | some a =>
    simp only [hk, Option.bind_eq_bind, Option.bind_some, UnionType.table?_attrs, member?, if_pos]
    cases TableLike.table? x Slot.Operator.attrs <;> rfl

theorem constant_content (x : T) : ConstantContent.of x = {
    shape := unsignedsAt? x Slot.Constant.shape
    dataType := byteAt x Slot.Constant.dataType
    floatData := (UnionType.elements.table? x Slot.Constant.dataType (.elements .float) Slot.Constant.data).map
      fun y => floatsAt? y Slot.Data.data
    intData := (UnionType.elements.table? x Slot.Constant.dataType (.elements .int) Slot.Constant.data).map
      fun y => intsAt? y Slot.Data.data } := by
  rw [UnionType.table?_elements, UnionType.table?_elements]
  rfl

theorem node_content (x : T) : NodeContent.of x = {
    name := textAt? x Slot.Node.name
    dataType := byteAt x Slot.Node.dataType
    operator := (UnionType.node.table? x Slot.Node.dataType .operator Slot.Node.data).map .of
    constant := (UnionType.node.table? x Slot.Node.dataType .constant Slot.Node.data).map .of
    isValue := (UnionType.node.table? x Slot.Node.dataType .value Slot.Node.data).isSome } := by
  have hunion := UnionType.table?_node x Slot.Node.dataType Slot.Node.data
  rw [show TableType.operator = NodeTable.operator.tableType from rfl, hunion,
    show TableType.constant = NodeTable.constant.tableType from rfl, hunion,
    show TableType.value = NodeTable.value.tableType from rfl, hunion]
  rfl

theorem Reaches.head {t t' t'' : TableType} {x y z : T} (first : Access t x t' y)
    (chain : Reaches t' y t'' z) : Reaches t x t'' z := by
  induction chain with
  | refl => exact .tail .refl first
  | tail _ last ih => exact .tail ih last

end Access

/-! ## Logical tables in order -/

/-- An entry is what a type of field says. -/
inductive Has : FieldType → Entry → Prop
  | byte (v : UInt8) : Has .byte (.byte v)
  | word (v : UInt32) : Has .word (.word v)
  | text (bs : List UInt8) : Has .text (.child (.text bs))
  | words (ws : List UInt32) : Has .words (.child (.words ws))
  | table (t : TableType) (fs : Fields) : Has (.table t) (.child (.table fs))
  | tables (t : TableType) {os : Objects} (all : os.toList = os.tables.map Object.table) :
      Has (.tables t) (.child (.tables os))
  | member (kind : Nat) (u : UnionType) (fs : Fields) : Has (.member kind u) (.child (.table fs))

/-- Each field of a table holds what its type says. Slots that the kind of table does not have may
hold anything. -/
def Typed (t : TableType) (fs : Fields) : Prop :=
  ∀ s f e, t.field? s = some f → fs.entry? s = some e → Has f e

/-- Every table that is reached from a table is in order. -/
def WellTyped (t : TableType) (fs : Fields) : Prop :=
  ∀ t' fs', Reaches t fs t' fs' → Typed t' fs'

theorem WellTyped.typed {t : TableType} {fs : Fields} (h : WellTyped t fs) : Typed t fs :=
  h t fs .refl

theorem WellTyped.access {t t' : TableType} {fs fs' : Fields} (h : WellTyped t fs)
    (ha : Access t fs t' fs') : WellTyped t' fs' :=
  fun t'' fs'' hr => h t'' fs'' (hr.head ha)

end NetPack.Schema
