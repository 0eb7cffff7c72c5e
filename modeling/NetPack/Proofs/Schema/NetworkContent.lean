import NetPack.Schema.Content
import NetPack.Schema.Encode
import NetPack.Schema.Enumeration

/-!
# The content of a network

`Network.content` is what a reader is to see of a network, field by field, and `ModelContent.network?`
makes a network of such a content again, with the names of the format for its bytes. The network that
comes back is the one that went in up to what the format cannot tell apart (`Network.settled`): the two
zeros in an attribute, and a mean over an empty list of axes and one over no list.
-/

namespace NetPack

open Schema

/-! ## What the format cannot tell apart -/

/-- The number, with both zeros made positive. -/
def Single.settled (x : Single) : Single :=
  if x.isZero then .zero else x

def Scalar.settled : Scalar → Scalar
  | .int v => .int v
  | .float v => .float v.settled

def Attrs.settled : Attrs → Attrs
  | .batchNormalization epsilon => .batchNormalization epsilon.settled
  | .clip min max => .clip min.settled max.settled
  | .constantOfShape value => .constantOfShape value.settled
  | .gemm alpha beta transposeA transposeB => .gemm alpha.settled beta.settled transposeA transposeB
  | .leakyRelu alpha => .leakyRelu alpha.settled
  | .reduceMean (some []) keepDims => .reduceMean .none keepDims
  | a => a

def Operator.settled (o : Operator) : Operator :=
  { o with attrs := o.attrs.settled }

def Node.settled : Node → Node
  | .operator o => .operator o.settled
  | .constant c => .constant c
  | .value name => .value name

def Network.settled (n : Network) : Network :=
  { n with nodes := n.nodes.map Node.settled }

/-- Only the negative zero changes. -/
theorem Single.settled_eq_iff (x : Single) : x.settled = x ↔ x.bits ≠ 0x80000000 := by
  obtain ⟨bits⟩ := x
  have hb : bits.toNat < 0x100000000 := bits.toNat_lt
  rw [Single.settled]
  split
  · rename_i h
    have hm : bits.toNat % 0x80000000 = 0 := of_decide_eq_true h
    rw [Single.zero, Single.mk.injEq, ne_eq, ← UInt32.toNat_inj, ← UInt32.toNat_inj]
    simp only [UInt32.toNat_ofNat]
    omega
  · rename_i h
    simp only [true_iff]
    rintro rfl
    exact h rfl

/-! ## Numbers in words -/

theorem toInt32_words (vs : List Int32) : (vs.map Int32.toUInt32).map UInt32.toInt32 = vs := by
  have hid : UInt32.toInt32 ∘ Int32.toUInt32 = id := funext Int32.toInt32_toUInt32
  rw [List.map_map, hid, List.map_id]

theorem single_words (vs : List Single) : (vs.map Single.bits).map Single.mk = vs := by
  have hid : Single.mk ∘ Single.bits = id := rfl
  rw [List.map_map, hid, List.map_id]

/-! ## Contents of networks -/

/-- A list that is absent when it is empty. -/
def nonempty? {α : Type} (vs : List α) : Option (List α) :=
  if vs.isEmpty then none else some vs

def Padding.content? : Padding → Option (List UInt32)
  | .same => none
  | .fixed top left bottom right => some [top, left, bottom, right]

def PoolAttrs.content (p : PoolAttrs) : PoolContent where
  kernelSize := some [p.kernelHeight, p.kernelWidth]
  padMode := padModeByte p.padding
  pads := p.padding.content?
  stride := some [p.strideHeight, p.strideWidth]

def Scalar.content : Scalar → AttrsContent
  | .int v => .constantOfShape ScalarTable.int.byte (some v) none
  | .float v => .constantOfShape ScalarTable.float.byte none (some v.settled)

def Attrs.content? : Attrs → Option AttrsContent
  | .none => .none
  | .averagePool p => some (.averagePool p.content)
  | .batchNormalization epsilon => some (.batchNormalization epsilon.settled)
  | .cast target => some (.cast (numberTypeByte target))
  | .clip min max => some (.clip min.settled max.settled)
  | .concat dim => some (.concat dim)
  | .constantOfShape value => some value.content
  | .conv groups padding stride =>
    some (.conv ⟨groups, padModeByte padding, padding.content?, stride⟩)
  | .convTranspose stride => some (.convTranspose stride)
  | .gather axis => some (.gather axis)
  | .gemm alpha beta transposeA transposeB =>
    some (.gemm alpha.settled beta.settled transposeA transposeB)
  | .leakyRelu alpha => some (.leakyRelu alpha.settled)
  | .maxPool p => some (.maxPool p.content)
  | .reduceMean axes keepDims => some (.reduceMean (axes.bind nonempty?) keepDims)
  | .resize mode => some (.resize (resizeModeByte mode))
  | .softmax axis => some (.softmax axis)
  | .split axis sizes => some (.split axis (nonempty? sizes))
  | .squeeze axes => some (.squeeze (nonempty? axes))
  | .transpose perm => some (.transpose (nonempty? perm))
  | .unsqueeze axes => some (.unsqueeze (some axes))

def Operator.content (o : Operator) : OperatorContent where
  type := UInt8.ofNat o.opType.code
  attrsType := attrsByte o.attrs
  attrs := o.attrs.content?
  inputs := some o.inputs
  outputs := some o.outputs

def Constant.content (c : Constant) : ConstantContent :=
  match c.elements with
  | .float vs => ⟨some c.shape, DataTable.float.byte, some (some vs), none⟩
  | .int vs => ⟨some c.shape, DataTable.int.byte, none, some (some vs)⟩

def Node.content : Node → NodeContent
  | .operator o => ⟨some o.name, NodeTable.operator.byte, some o.content, none, false⟩
  | .constant c => ⟨some c.name, NodeTable.constant.byte, none, some c.content, false⟩
  | .value name => ⟨some name, NodeTable.value.byte, none, none, true⟩

def Network.content (n : Network) : ModelContent where
  schemaVersion := 1
  graph := some ⟨some (n.nodes.map Node.content), some n.inputs, some n.outputs⟩

/-! ## Networks of contents -/

namespace Schema

/-- The padding of a mode and a list of amounts. -/
def padding? (mode : UInt8) (pads : Option (List UInt32)) : Option Padding :=
  match Enumeration.padMode.nameOf? mode, pads with
  | some "Same", none => some .same
  | some "Fixed", some [top, left, bottom, right] => some (.fixed top left bottom right)
  | _, _ => none

def numberType? (b : UInt8) : Option NumberType :=
  match Enumeration.dataType.nameOf? b with
  | some "Int32" => some .int32
  | some "Float" => some .float
  | _ => none

def resizeMode? (b : UInt8) : Option ResizeMode :=
  match Enumeration.resizeMode.nameOf? b with
  | some "Nearest" => some .nearest
  | some "Linear" => some .linear
  | _ => none

def PoolContent.attrs? (p : PoolContent) : Option PoolAttrs :=
  match p.kernelSize, padding? p.padMode p.pads, p.stride with
  | some [kernelHeight, kernelWidth], some padding, some [strideHeight, strideWidth] =>
    some ⟨kernelHeight, kernelWidth, padding, strideHeight, strideWidth⟩
  | _, _, _ => none

def scalar? (valueType : UInt8) (int : Option Int32) (float : Option Single) : Option Scalar :=
  match ScalarTable.ofByte? valueType, int, float with
  | some .int, some v, none => some (.int v)
  | some .float, none, some v => some (.float v)
  | _, _, _ => none

def AttrsContent.attrs? : AttrsContent → Option Attrs
  | averagePool p => p.attrs?.map .averagePool
  | batchNormalization epsilon => some (.batchNormalization epsilon)
  | cast target => (numberType? target).map .cast
  | clip min max => some (.clip min max)
  | concat dim => some (.concat dim)
  | constantOfShape valueType int float => (scalar? valueType int float).map .constantOfShape
  | conv c => (padding? c.padMode c.pads).map fun padding => .conv c.groups padding c.stride
  | convTranspose stride => some (.convTranspose stride)
  | gather axis => some (.gather axis)
  | gemm alpha beta transposeA transposeB => some (.gemm alpha beta transposeA transposeB)
  | leakyRelu alpha => some (.leakyRelu alpha)
  | maxPool p => p.attrs?.map .maxPool
  | reduceMean axes keepDims => some (.reduceMean axes keepDims)
  | resize mode => (resizeMode? mode).map .resize
  | softmax axis => some (.softmax axis)
  | split axis sizes => some (.split axis (sizes.getD []))
  | squeeze axes => some (.squeeze (axes.getD []))
  | transpose perm => some (.transpose (perm.getD []))
  | unsqueeze axes => axes.map .unsqueeze

/-- The attributes of an operator, whose kind must be the one that is told. -/
def OperatorContent.attrs? (o : OperatorContent) : Option Attrs :=
  match o.attrs with
  | none => if o.attrsType = 0 then some .none else none
  | some content => do
    let a ← content.attrs?
    if attrsByte a = o.attrsType then some a else none

def OperatorContent.operator? (o : OperatorContent) (name : String) : Option Operator := do
  let typeName ← Enumeration.operatorType.nameOf? o.type
  let opType ← OpType.ofName? typeName
  let attrs ← o.attrs?
  let inputs ← o.inputs
  let outputs ← o.outputs
  some ⟨name, opType, attrs, inputs, outputs⟩

def ConstantContent.elements? (c : ConstantContent) : Option Elements :=
  match DataTable.ofByte? c.dataType, c.floatData, c.intData with
  | some .float, some (some vs), none => some (.float vs)
  | some .int, none, some (some vs) => some (.int vs)
  | _, _, _ => none

def ConstantContent.constant? (c : ConstantContent) (name : String) : Option Constant := do
  let shape ← c.shape
  let elements ← c.elements?
  if h : elementCount? shape = some elements.length then some ⟨name, shape, elements, h⟩ else none

def NodeContent.node? (n : NodeContent) : Option Node := do
  let name ← n.name
  match NodeTable.ofByte? n.dataType, n.operator, n.constant, n.isValue with
  | some .operator, some o, none, false => (o.operator? name).map .operator
  | some .constant, none, some c, false => (c.constant? name).map .constant
  | some .value, none, none, true => some (.value name)
  | _, _, _, _ => none

def ModelContent.network? (m : ModelContent) : Option Network := do
  let g ← m.graph
  let nodes ← g.nodes
  let nodes ← nodes.mapM NodeContent.node?
  let inputs ← g.inputs
  let outputs ← g.outputs
  if m.schemaVersion = 1 then some ⟨nodes, inputs, outputs⟩ else none

end Schema

/-! ## The way there and back -/

theorem padding?_content (p : Padding) : padding? (padModeByte p) p.content? = some p := by
  cases p <;> rfl

theorem numberType?_byte (t : NumberType) : numberType? (numberTypeByte t) = some t := by
  cases t <;> rfl

theorem resizeMode?_byte (m : ResizeMode) : resizeMode? (resizeModeByte m) = some m := by
  cases m <;> rfl

theorem PoolAttrs.attrs?_content (p : PoolAttrs) : p.content.attrs? = some p := by
  simp only [PoolContent.attrs?, PoolAttrs.content, padding?_content]

theorem getD_nonempty? {α : Type} (vs : List α) : (nonempty? vs).getD [] = vs := by
  cases vs <;> rfl

theorem Attrs.attrs?_content {a : Attrs} {c : AttrsContent} (h : a.content? = some c) :
    c.attrs? = some a.settled := by
  cases a with
  | none => cases h
  | averagePool p =>
    cases h
    rw [AttrsContent.attrs?, PoolAttrs.attrs?_content]
    rfl
  | maxPool p =>
    cases h
    rw [AttrsContent.attrs?, PoolAttrs.attrs?_content]
    rfl
  | cast target =>
    cases h
    rw [AttrsContent.attrs?, numberType?_byte]
    rfl
  | constantOfShape value => cases value <;> cases h <;> rfl
  | conv groups padding stride =>
    cases h
    simp only [AttrsContent.attrs?, padding?_content]
    rfl
  | reduceMean axes keepDims =>
    cases h
    match axes with
    | .none => rfl
    | some [] => rfl
    | some (_ :: _) => rfl
  | resize mode =>
    cases h
    rw [AttrsContent.attrs?, resizeMode?_byte]
    rfl
  | split axis split =>
    cases h
    rw [AttrsContent.attrs?, getD_nonempty?]
    rfl
  | squeeze axes =>
    cases h
    rw [AttrsContent.attrs?, getD_nonempty?]
    rfl
  | transpose perm =>
    cases h
    rw [AttrsContent.attrs?, getD_nonempty?]
    rfl
  | _ =>
    cases h
    rfl

theorem attrsByte_settled (a : Attrs) : attrsByte a.settled = attrsByte a := by
  cases a with
  | reduceMean axes keepDims =>
    match axes with
    | .none => rfl
    | some [] => rfl
    | some (_ :: _) => rfl
  | _ => rfl

theorem Operator.attrs?_content (o : Operator) : o.content.attrs? = some o.attrs.settled := by
  obtain ⟨name, opType, a, inputs, outputs⟩ := o
  simp only [OperatorContent.attrs?, Operator.content]
  cases h : a.content? with
  | none =>
    cases a with
    | none => rfl
    | _ => cases h
  | some c =>
    simp only [Attrs.attrs?_content h, Option.bind_eq_bind, Option.bind_some, attrsByte_settled,
      if_true]

theorem ofName?_nameOf? (t : OpType) :
    (Enumeration.operatorType.nameOf? (UInt8.ofNat t.code)).bind OpType.ofName? = some t := by
  cases t <;> rfl

theorem Operator.operator?_content (o : Operator) : o.content.operator? o.name = some o.settled := by
  have hattrs := o.attrs?_content
  have htype := ofName?_nameOf? o.opType
  simp only [OperatorContent.operator?, Option.bind_eq_bind, hattrs, Option.bind_some]
  simp only [Operator.content, Option.bind_some]
  rw [← Option.bind_assoc, htype]
  rfl

theorem Constant.constant?_content (c : Constant) : c.content.constant? c.name = some c := by
  obtain ⟨name, shape, elements, h⟩ := c
  cases elements with
  | float vs =>
    simp only [Constant.content, ConstantContent.constant?, ConstantContent.elements?,
      DataTable.ofByte?_byte, Option.bind_eq_bind, Option.bind_some]
    exact dif_pos h
  | int vs =>
    simp only [Constant.content, ConstantContent.constant?, ConstantContent.elements?,
      DataTable.ofByte?_byte, Option.bind_eq_bind, Option.bind_some]
    exact dif_pos h

theorem Node.node?_content (n : Node) : n.content.node? = some n.settled := by
  cases n with
  | operator o =>
    simp only [Node.content, NodeContent.node?, NodeTable.ofByte?_byte, Option.bind_eq_bind,
      Option.bind_some, o.operator?_content]
    rfl
  | constant c =>
    simp only [Node.content, NodeContent.node?, NodeTable.ofByte?_byte, Option.bind_eq_bind,
      Option.bind_some, c.constant?_content]
    rfl
  | value name => rfl

theorem mapM_node?_content (ns : List Node) :
    (ns.map Node.content).mapM NodeContent.node? = some (ns.map Node.settled) := by
  induction ns with
  | nil => rfl
  | cons n r ih =>
    rw [List.map_cons, List.mapM_cons, n.node?_content, ih]
    rfl

/-- The content of a network is all that there is to know, up to what the format cannot tell apart. -/
theorem Network.network?_content (n : Network) : n.content.network? = some n.settled := by
  simp only [ModelContent.network?, Network.content, Option.bind_eq_bind, Option.bind_some,
    mapM_node?_content, if_true]
  rfl

end NetPack
