import NetPack.Proofs.Network.ElementCount
import NetPack.Proofs.Schema.Access
import NetPack.Proofs.Schema.NetworkContent

/-!
# Tables that are what they say

A reader decodes the attributes of an operator by the type of the operator alone, and the elements of a constant
by its shape. `OperatorTyped` and `ConstantTyped` say when it may: the table of the attributes is the one that
is named after the type, its lists are as long as they have to be, and the elements are as many as the shape
asks for. The tables of a network are so if its operators have the attributes of their types
(`Network.operatorTyped`, `Network.constantTyped`).
-/

namespace NetPack

open Schema
open Buffer (TableLike)

theorem Constant.length_elements (c : Constant) : c.elements.length = product c.shape :=
  (elementCount?_eq_some_iff.mp c.count_eq).1

namespace Schema

/-! ## Names of tables -/

/-- The name of the table that holds the attributes of an operator type: the name of the type followed by
`Attrs` if there is such a table, and otherwise that of no table. -/
def attrsName (opType : String) : String :=
  if opType ++ "Attrs" ∈ Enumeration.operatorAttrs.names then opType ++ "Attrs" else Enumeration.noTable

/-- The name of the table that some attributes are stored in. -/
def tableName (a : Attrs) : String :=
  ((AttrsTable.ofAttrs? a).map AttrsTable.name).getD Enumeration.noTable

theorem AttrsTable.mem_all (t : AttrsTable) : t ∈ all := by
  cases t <;> decide

/-- The attributes are in the table that is named after an operator type, if there is one. -/
def AttrsOf (opType : String) (a : Attrs) : Prop :=
  ∀ asked : AttrsTable, AttrsTable.ofAttrs? a = some asked ↔ asked.name = opType ++ "Attrs"

theorem AttrsOf.tableName_eq {opType : String} {a : Attrs} (h : AttrsOf opType a) :
    tableName a = attrsName opType := by
  unfold tableName attrsName
  cases hkind : AttrsTable.ofAttrs? a with
  | some kind =>
    have hname : kind.name = opType ++ "Attrs" := (h kind).mp hkind
    have hmem : kind.name ∈ Enumeration.operatorAttrs.names :=
      List.mem_cons_of_mem _ (List.mem_map_of_mem (AttrsTable.mem_all kind))
    rw [← hname, if_pos hmem]
    rfl
  | none =>
    split
    · rename_i hmem
      rcases List.mem_cons.mp hmem with hnone | hmember
      · exact hnone.symm
      · obtain ⟨kind, -, hname⟩ := List.mem_map.mp hmember
        rw [(h kind).mpr hname] at hkind
        cases hkind
    · rfl

theorem nameOf?_attrsByte (a : Attrs) :
    Enumeration.operatorAttrs.nameOf? (attrsByte a) = some (tableName a) := by
  cases a <;> rfl

/-- The byte of some attributes leads to their table, which has them. -/
theorem ofByte?_attrsByte_iff {a : Attrs} {asked : AttrsTable} :
    (AttrsTable.ofByte? (attrsByte a) = some asked ∧ a.content?.isSome) ↔
      AttrsTable.ofAttrs? a = some asked := by
  have hbyte : AttrsTable.ofByte? (attrsByte a) = AttrsTable.ofAttrs? a := by
    cases a <;> rfl
  have hcontent : a.content?.isSome = (AttrsTable.ofAttrs? a).isSome := by
    cases a <;> rfl
  rw [hbyte, hcontent]
  constructor
  · exact And.left
  · intro h
    exact ⟨h, by rw [h]; rfl⟩

theorem nameOf?_code (t : OpType) : Enumeration.operatorType.nameOf? (UInt8.ofNat t.code) = some t.name := by
  cases t <;> rfl

/-! ## Lists of attributes -/

/-- There are four amounts of padding if the mode is `Fixed`, and none if it is `Same`. -/
def PadsTyped (mode : UInt8) (pads : Option (List UInt32)) : Prop :=
  (Enumeration.padMode.nameOf? mode = some "Fixed" ∧ ∃ amounts, pads = some amounts ∧ amounts.length = 4) ∨
  (Enumeration.padMode.nameOf? mode = some "Same" ∧ pads = none)

structure PoolTyped (p : PoolContent) : Prop where
  kernelSize : ∃ size, p.kernelSize = some size ∧ size.length = 2
  stride : ∃ steps, p.stride = some steps ∧ steps.length = 2
  pads : PadsTyped p.padMode p.pads

def AttrsTyped : AttrsContent → Prop
  | .averagePool p | .maxPool p => PoolTyped p
  | .conv c => PadsTyped c.padMode c.pads
  | _ => True

theorem padsTyped_content (p : Padding) : PadsTyped (padModeByte p) p.content? := by
  cases p with
  | same => exact .inr ⟨rfl, rfl⟩
  | fixed top left bottom right => exact .inl ⟨rfl, _, rfl, rfl⟩

theorem poolTyped_content (p : PoolAttrs) : PoolTyped p.content :=
  ⟨⟨_, rfl, rfl⟩, ⟨_, rfl, rfl⟩, padsTyped_content p.padding⟩

theorem attrsTyped_content {a : Attrs} {c : AttrsContent} (h : a.content? = some c) : AttrsTyped c := by
  cases a with
  | none => cases h
  | averagePool p | maxPool p =>
    cases h
    exact poolTyped_content p
  | conv groups padding stride =>
    cases h
    exact padsTyped_content padding
  | constantOfShape value =>
    cases h
    cases value <;> exact trivial
  | _ =>
    cases h
    exact trivial

/-! ## Tables of nodes -/

def ModelContent.nodes (m : ModelContent) : List NodeContent :=
  (m.graph.bind fun g => g.nodes).getD []

def ModelContent.operators (m : ModelContent) : List OperatorContent :=
  m.nodes.filterMap fun n => n.operator

def ModelContent.constants (m : ModelContent) : List ConstantContent :=
  m.nodes.filterMap fun n => n.constant

section Tables

variable {T : Type} [TableLike T]

/-- The tables of the nodes of a model, in order. -/
def nodeTables (root : T) : List T :=
  ((TableLike.table? root Slot.Model.graph).bind fun g => TableLike.tables? g Slot.Graph.nodes).getD []

/-- The tables of the nodes of a kind. -/
def tablesOf (root : T) (asked : NodeTable) : List T :=
  (nodeTables root).filterMap fun x => UnionType.node.table? x Slot.Node.dataType asked.tableType Slot.Node.data

/-- The accessor of an operator for one of the tables of attributes. -/
def attrsAs? (x : T) (asked : AttrsTable) : Option T :=
  UnionType.attrs.table? x Slot.Operator.attrsType (.attrs asked) Slot.Operator.attrs

/-- A table of an operator says that the operator is of a type, and is as the type says. -/
structure OperatorTyped (x : T) (opType : String) : Prop where
  type : Enumeration.operatorType.nameOf? (OperatorContent.of x).type = some opType
  attrsType : Enumeration.operatorAttrs.nameOf? (OperatorContent.of x).attrsType = some (attrsName opType)
  accessors : ∀ asked : AttrsTable, (attrsAs? x asked).isSome ↔ asked.name = opType ++ "Attrs"
  attrs : ∀ c, (OperatorContent.of x).attrs = some c → AttrsTyped c

/-- A table of a constant has elements of one type, and as many as its shape asks for. -/
structure ConstantTyped (x : T) : Prop where
  elements : ∃ shape, (ConstantContent.of x).shape = some shape ∧
    ((∃ vs, (ConstantContent.of x).floatData = some (some vs) ∧ (ConstantContent.of x).intData = none ∧
        vs.length = product shape) ∨
      ∃ vs, (ConstantContent.of x).intData = some (some vs) ∧ (ConstantContent.of x).floatData = none ∧
        vs.length = product shape)

/-! ## Tables and contents -/

theorem isSome_attrsAs?_iff {x : T} {asked : AttrsTable} : (attrsAs? x asked).isSome ↔
    AttrsTable.ofByte? (OperatorContent.of x).attrsType = some asked ∧ (OperatorContent.of x).attrs.isSome := by
  rw [operator_content, attrsAs?]
  dsimp only
  rw [UnionType.table?_attrs]
  cases hkind : AttrsTable.ofByte? (byteAt x Slot.Operator.attrsType) with
  | none => simp [member?]
  | some kind =>
    rw [Option.bind_some, Option.isSome_map, UnionType.table?_attrs, hkind]
    unfold member?
    by_cases h : kind = asked
    · subst h
      simp
    · simp [h]

theorem nodes_of (root : T) : (ModelContent.of root).nodes = (nodeTables root).map NodeContent.of := by
  unfold ModelContent.nodes ModelContent.of nodeTables
  cases TableLike.table? root Slot.Model.graph with
  | none => rfl
  | some g =>
    dsimp only [Option.map_some, Option.bind_some, GraphContent.of]
    cases TableLike.tables? g Slot.Graph.nodes <;> rfl

theorem operators_of (root : T) :
    (ModelContent.of root).operators = (tablesOf root .operator).map OperatorContent.of := by
  rw [ModelContent.operators, nodes_of, tablesOf, List.filterMap_map, List.map_filterMap]
  exact congrArg (List.filterMap · _) (funext fun x => congrArg NodeContent.operator (node_content x))

theorem constants_of (root : T) :
    (ModelContent.of root).constants = (tablesOf root .constant).map ConstantContent.of := by
  rw [ModelContent.constants, nodes_of, tablesOf, List.filterMap_map, List.map_filterMap]
  exact congrArg (List.filterMap · _) (funext fun x => congrArg NodeContent.constant (node_content x))

/-- An operator whose attributes are of its type is stored in a table that is as the type says. -/
theorem operatorTyped_of_content {x : T} {o : Operator} (hx : OperatorContent.of x = o.content)
    (h : AttrsOf o.opType.name o.attrs) : OperatorTyped x o.opType.name where
  type := by
    rw [hx]
    exact nameOf?_code o.opType
  attrsType := by
    rw [hx, ← h.tableName_eq]
    exact nameOf?_attrsByte o.attrs
  accessors asked := by
    rw [isSome_attrsAs?_iff, hx, ← h asked]
    exact ofByte?_attrsByte_iff
  attrs c hc := by
    rw [hx] at hc
    exact attrsTyped_content hc

theorem constantTyped_of_content {x : T} {c : Constant} (hx : ConstantContent.of x = c.content) :
    ConstantTyped x where
  elements := by
    have hlength := c.length_elements
    rw [hx, Constant.content]
    cases helements : c.elements with
    | float vs =>
      rw [helements] at hlength
      exact ⟨c.shape, rfl, .inl ⟨vs, rfl, rfl, hlength⟩⟩
    | int vs =>
      rw [helements] at hlength
      exact ⟨c.shape, rfl, .inr ⟨vs, rfl, rfl, hlength⟩⟩

end Tables

end Schema

end NetPack
