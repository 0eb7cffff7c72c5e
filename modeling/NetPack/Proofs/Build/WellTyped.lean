import NetPack.Pack
import NetPack.Proofs.Build.Attributes
import NetPack.Proofs.Rule.Accepted
import NetPack.Proofs.Schema.Kinds
import NetPack.Proofs.Schema.RoundTrip

/-!
# Packed networks are well typed

The rule of an operator type, the attributes in packed form and the table that they are stored in belong
together (`attrsOf_of_rule`). So in the network of a packed model, and in its bytes, each operator has the
attributes of its type, with lists of the right lengths, and each constant has the elements that its shape asks
for (`Onnx.Model.pack_wellTyped`).
-/

namespace NetPack

open Schema
open Buffer (Table TableLike)
open Buffer.Writer (sizeLimit)

/-! ## Kinds of attributes -/

/-- The table of the attributes of an operator type, if it has any. -/
def OpType.attrsTable? : OpType → Option AttrsTable
  | .averagePool => some .averagePool
  | .batchNormalization => some .batchNormalization
  | .cast => some .cast
  | .clip => some .clip
  | .concat => some .concat
  | .constantOfShape => some .constantOfShape
  | .conv => some .conv
  | .convTranspose => some .convTranspose
  | .gather => some .gather
  | .gemm => some .gemm
  | .leakyRelu => some .leakyRelu
  | .maxPool => some .maxPool
  | .reduceMean => some .reduceMean
  | .resize => some .resize
  | .softmax => some .softmax
  | .split => some .split
  | .squeeze => some .squeeze
  | .transpose => some .transpose
  | .unsqueeze => some .unsqueeze
  | _ => none

/-- It is the one that is named after the type. -/
theorem OpType.attrsTable?_eq_some_iff (t : OpType) (table : AttrsTable) :
    t.attrsTable? = some table ↔ table.name = t.name ++ "Attrs" := by
  have hall : ∀ t ∈ all, ∀ table ∈ AttrsTable.all,
      t.attrsTable? = some table ↔ table.name = t.name ++ "Attrs" := by
    decide
  exact hall t t.mem_all table table.mem_all

theorem OpType.attrsTable?_of_carries {t : OpType} {n : Onnx.Node} {constants : ConstantTable} {a : Attrs}
    (h : t.Carries n constants a) : AttrsTable.ofAttrs? a = t.attrsTable? := by
  cases t <;> cases a <;> first | exact h.elim | rfl

/-- What a rule gives is stored in the table that is named after the operator type. -/
theorem attrsOf_of_rule {t : OpType} {n : Onnx.Node} {constants : ConstantTable} {a : Attrs}
    (h : (t.rule n constants).result = .ok a) : AttrsOf t.name a := by
  have hcarries := ((t.accepts_rule n constants).sound a h).2
  intro table
  rw [OpType.attrsTable?_of_carries hcarries, t.attrsTable?_eq_some_iff]

theorem Build.Made.attrsOf {constants : ConstantTable} {m : Onnx.Node} {o : Operator}
    (h : Made constants m o) : o.opType.name = m.opType ∧ AttrsOf o.opType.name o.attrs :=
  ⟨OpType.name_of_ofName?_eq_some h.opType, attrsOf_of_rule h.attrs⟩

/-! ## Networks and buffers -/

/-- An operator has the type of an ONNX operator, and its attributes are of the kind of that type. -/
structure Operator.Typed (o : Operator) (opType : String) : Prop where
  type : o.opType.name = opType
  attrs : tableName o.attrs = attrsName opType

/-- The constants of a network are filled, and its operators are typed as those of a graph. -/
structure Network.Typed (n : Network) (g : Onnx.Graph) : Prop where
  constants : ∀ c, .constant c ∈ n.nodes → c.elements.length = product c.shape
  operators : List.Forall₂ (fun m (o : Operator) => o.Typed m.opType) g.operators n.operators

/-- The same of the tables in a buffer. -/
structure Schema.RootTyped {T : Type} [TableLike T] (root : T) (g : Onnx.Graph) : Prop where
  constants : ∀ x ∈ tablesOf root .constant, ConstantTyped x
  operators : List.Forall₂ (fun m x => OperatorTyped x m.opType) g.operators (tablesOf root .operator)

namespace Network

variable {g : Onnx.Graph} {n : Network}

theorem typed_of_build (h : (build g).result = .ok n) : n.Typed g where
  constants c _ := c.length_elements
  operators := by
    obtain ⟨-, -, -, hall⟩ := exists_holding h
    refine hall.imp fun m o hmade => ?_
    obtain ⟨hname, hattrs⟩ := hmade.attrsOf
    exact ⟨hname, by rw [hattrs.tableName_eq, hname]⟩

theorem operators_content (n : Network) : n.content.operators = n.operators.map Operator.content := by
  have hnodes : n.content.nodes = n.nodes.map Node.content := rfl
  rw [ModelContent.operators, hnodes, operators, List.filterMap_map, List.map_filterMap]
  exact congrArg (List.filterMap · n.nodes) (funext fun x => by cases x <;> rfl)

theorem constants_content (n : Network) :
    n.content.constants = (n.nodes.filterMap Node.constant?).map Constant.content := by
  have hnodes : n.content.nodes = n.nodes.map Node.content := rfl
  rw [ModelContent.constants, hnodes, List.filterMap_map, List.map_filterMap]
  exact congrArg (List.filterMap · n.nodes) (funext fun x => by cases x <;> rfl)

/-- The tables in a buffer that shows the content of a network are typed as the network is. -/
theorem rootTyped_of_build {T : Type} [TableLike T] {root : T} (h : (build g).result = .ok n)
    (hroot : ModelContent.of root = n.content) : RootTyped root g where
  constants x hx := by
    have hcontents : (tablesOf root .constant).map ConstantContent.of
        = (n.nodes.filterMap Node.constant?).map Constant.content := by
      rw [← constants_of, hroot, constants_content]
    have hmem : ConstantContent.of x ∈ (n.nodes.filterMap Node.constant?).map Constant.content := by
      rw [← hcontents]
      exact List.mem_map_of_mem hx
    obtain ⟨c, -, hc⟩ := List.mem_map.mp hmem
    exact constantTyped_of_content hc.symm
  operators := by
    have hcontents : (tablesOf root .operator).map OperatorContent.of = n.operators.map Operator.content := by
      rw [← operators_of, hroot, operators_content]
    obtain ⟨-, -, -, hall⟩ := exists_holding h
    have hmatched : List.Forall₂ (fun m content => ∃ o, Build.Made g.constantTable m o ∧
        content = o.content) g.operators ((tablesOf root .operator).map OperatorContent.of) := by
      rw [hcontents, List.forall₂_map_right_iff]
      exact hall.imp fun m o hmade => ⟨o, hmade, rfl⟩
    rw [List.forall₂_map_right_iff] at hmatched
    refine hmatched.imp fun m x ⟨o, hmade, hx⟩ => ?_
    obtain ⟨hname, hattrs⟩ := hmade.attrsOf
    exact hname ▸ operatorTyped_of_content hx hattrs

end Network

/-! ## Packed models -/

theorem Network.exists_pack {g : Onnx.Graph} {n : Network} (h : (Network.build g).result = .ok n) :
    ∃ p, (Onnx.Model.pack { graph := some g }).result = .ok p ∧ p.bytes = n.toBytes := by
  have hwith : ((Network.build g).withLog).result = .ok (n, (Network.build g).log) := by
    rw [Logged.withLog, h]
    rfl
  refine ⟨⟨n.toBytes, diagnosticsOf (Network.build g).log⟩, ?_, rfl⟩
  refine Logged.result_bind_eq_ok_iff.mpr ⟨g, rfl, ?_⟩
  refine Logged.result_bind_eq_ok_iff.mpr ⟨_, hwith, ?_⟩
  rfl

theorem Onnx.Model.exists_network {m : Onnx.Model} {p : Packed} (h : m.pack.result = .ok p) :
    ∃ g n, m.graph = some g ∧ (Network.build g).result = .ok n ∧ p.bytes = n.toBytes := by
  obtain ⟨g, hg, h₁⟩ := Logged.result_bind_eq_ok_iff.mp h
  obtain ⟨⟨n, log⟩, hn, h₂⟩ := Logged.result_bind_eq_ok_iff.mp h₁
  obtain ⟨bytes, hbytes, h₃⟩ := Logged.result_bind_eq_ok_iff.mp h₂
  obtain ⟨u, -, hp⟩ := Logged.result_bind_eq_ok_iff.mp h₃
  have hgraph := (Logged.ofOption_eq_ok_iff.mp (Logged.eq_of_result hg)).1
  refine ⟨g, n, hgraph, ?_, ?_⟩
  · have hwith : ((Network.build g).withLog).result
        = (Network.build g).result.map fun n => (n, (Network.build g).log) := rfl
    rw [hwith] at hn
    cases hbuild : (Network.build g).result with
    | error e =>
      rw [hbuild] at hn
      cases hn
    | ok n' =>
      rw [hbuild] at hn
      cases hn
      rfl
  · have hpack : n.pack.result = .ok n.toBytes := rfl
    rw [hpack] at hbytes
    cases hbytes
    cases hp
    rfl

/-- The network of a packed model is typed as its graph, and so is what is read back from its bytes. Nineteen
operator types have attributes; that of padding and those that only change or ask for a shape have none. -/
theorem Onnx.Model.pack_wellTyped {m : Onnx.Model} {p : Packed} (h : m.pack.result = .ok p) :
    (∃ g n, m.graph = some g ∧ (Network.build g).result = .ok n ∧ p.bytes = n.toBytes ∧ n.Typed g ∧
      (p.bytes.length < sizeLimit → RootTyped (Table.root p.bytes.toArray) g)) ∧
    (OpType.all.filter fun t => attrsName t.name != Enumeration.noTable).length = 19 ∧
    ∀ t ∈ [OpType.pad, .reshape, .shape], attrsName t.name = Enumeration.noTable := by
  refine ⟨?_, by decide, by decide⟩
  obtain ⟨g, n, hg, hn, hbytes⟩ := m.exists_network h
  refine ⟨g, n, hg, hn, hbytes, Network.typed_of_build hn, fun hlimit => ?_⟩
  rw [hbytes] at hlimit ⊢
  exact Network.rootTyped_of_build hn (n.content_ofBytes hlimit)

def maxPoolOperator : Onnx.Node where
  opType := "MaxPool"
  name := "pool"
  inputs := ["x"]
  outputs := ["y"]
  attributes := [{ name := "kernel_shape", type := 7, ints := [2, 3] },
    { name := "pads", type := 7, ints := [1, 2, 3, 4] }]

/-- A pool with fixed padding, beside a constant. -/
def maxPoolGraph : Onnx.Graph where
  initializers := [{ name := "w", dims := [2], elementType := 7, int64Data := [1, 2] }]
  nodes := [maxPoolOperator]
  inputs := ["x"]
  outputs := ["y"]

def maxPoolNetwork : Network where
  nodes := [.constant ⟨"w", [2], .int [1, 2], rfl⟩, .value "x", .value "y",
    .operator ⟨"pool", .maxPool, .maxPool ⟨2, 3, .fixed 1 2 4 3, 1, 1⟩, [1], [2]⟩]
  inputs := [1]
  outputs := [2]

theorem built_maxPoolGraph : Build.Built maxPoolGraph maxPoolNetwork [⟨"w", [2], .int [1, 2], rfl⟩] [] where
  nodup := by decide
  inputs := .cons rfl .nil
  outputs := .cons rfl .nil
  constants := ⟨.cons rfl .nil, .nil⟩
  appended := .cons (o := ⟨"pool", .maxPool, .maxPool ⟨2, 3, .fixed 1 2 4 3, 1, 1⟩, [1], [2]⟩)
    ⟨rfl, rfl, rfl, .cons rfl .nil, rfl⟩ .nil

theorem build_maxPoolGraph : (Network.build maxPoolGraph).result = .ok maxPoolNetwork :=
  Network.build_of_built (by decide) (by decide) built_maxPoolGraph

theorem length_maxPoolNetwork : maxPoolNetwork.toBytes.length < sizeLimit :=
  Nat.lt_of_le_of_lt maxPoolNetwork.toObject.length_toBytes_le (by decide)

theorem wellTyped_maxPoolNetwork : ∃ p, (Onnx.Model.pack { graph := some maxPoolGraph }).result = .ok p ∧
    maxPoolNetwork.Typed maxPoolGraph ∧ RootTyped (Table.root p.bytes.toArray) maxPoolGraph := by
  obtain ⟨p, hp, hbytes⟩ := Network.exists_pack build_maxPoolGraph
  obtain ⟨g, n, hg, hn, -, htyped, hroot⟩ := (Onnx.Model.pack_wellTyped hp).1
  cases hg
  cases hn.symm.trans build_maxPoolGraph
  refine ⟨p, hp, htyped, hroot ?_⟩
  rw [hbytes]
  exact length_maxPoolNetwork

end NetPack
