import NetPack.Proofs.Build.Reordering

/-!
# What stands at a position

The names of the nodes of a network can be read off the graph, each at its place, and no two are the same. So
the place of a name among them tells where a node of the graph stands: a constant (`Network.constant_at`), an
operator with the positions of what it reads and computes (`Network.operator_at`), a value that it computes
(`Network.output_at`) or a graph input (`Network.input_at`).
-/

namespace NetPack

/-- The positions of given numbers. -/
def positions (ps : List Nat) : List NodeId :=
  ps.map UInt32.ofNat

/-- The nodes that a graph is built into have the given names at the given places. -/
def Onnx.Graph.Places (g : Onnx.Graph) (ps : List Nat) (names : List String) : Prop :=
  List.Forall₂ (fun p name => g.names[p]? = some name) ps names

theorem Onnx.Graph.name_mem_constantNames {g : Graph} {c : Constant} (h : c ∈ g.constants) :
    c.name ∈ g.constantNames := by
  rcases mem_constants.mp h with ⟨t, ht, hc⟩ | ⟨m, hm, hc⟩
  · refine List.mem_append_left _ (List.mem_map.mpr ⟨t, ht, ?_⟩)
    exact Option.some.inj (Build.name_of_toConstant t c hc)
  · exact List.mem_append_right _ (List.mem_filterMap.mpr ⟨m, hm, Build.head?_of_toConstant m c hc⟩)

namespace Network

variable {g : Onnx.Graph} {n : Network}

/-- A constant of a name, a shape and elements stands at a position. -/
def ConstantAt (n : Network) (p : Nat) (name : String) (shape : List UInt32) (elements : Elements) : Prop :=
  ∃ hcount, n.nodes[p]? = some (.constant ⟨name, shape, elements, hcount⟩)

theorem length_nodes (h : (build g).result = .ok n) : n.nodes.length = g.names.length := by
  rw [← map_name_nodes h, List.length_map]

theorem nodup_names (h : (build g).result = .ok n) : (n.nodes.map Node.name).Nodup := by
  obtain ⟨inits, consts, hb⟩ := Network.built h
  exact hb.nodup

/-- Each initializer and each operator of type `Constant` makes one constant. -/
theorem length_constants (h : (build g).result = .ok n) :
    (n.nodes.filterMap Node.constant?).length = g.initializers.length + g.constantNodes.length := by
  obtain ⟨inits, consts, hb⟩ := Network.built h
  obtain ⟨r, hnodes, hholding, -⟩ := exists_holding h
  rw [← hnodes, hholding.constants, hb.constants.constants_eq, List.length_append, ← hb.constants.inits.length_eq,
    ← hb.constants.consts.length_eq]
  rfl

/-- A node stands where its name does. -/
theorem getElem?_of_mem (h : (build g).result = .ok n) {x : Node} (hx : x ∈ n.nodes) {p : Nat}
    (hp : g.names[p]? = some x.name) : n.nodes[p]? = some x := by
  rw [← map_name_nodes h, List.getElem?_map] at hp
  obtain ⟨y, hy, hname⟩ := Option.map_eq_some_iff.mp hp
  rw [hy, eq_of_name h (List.mem_of_getElem? hy) hx hname]

theorem nameAt?_ofNat (h : (build g).result = .ok n) {p : Nat} {name : String} (hp : g.names[p]? = some name) :
    nameAt? n.nodes (UInt32.ofNat p) = some name := by
  have hlt := (List.getElem?_eq_some_iff.mp hp).choose
  have hroom := length_names_le h
  rw [nameAt?, Registry.toNat_ofNat (by omega), ← List.getElem?_map, map_name_nodes h]
  exact hp

theorem positions_of_names (h : (build g).result = .ok n) {ids : List NodeId} {names : List String} {ps : List Nat}
    (hids : Names n.nodes ids names) (hps : g.Places ps names) : ids = positions ps := by
  have hat : Names n.nodes (positions ps) names :=
    List.forall₂_map_left_iff.mpr (hps.imp fun _ _ hp => nameAt?_ofNat h hp)
  exact hids.unique (nodup_names h) hat

theorem inputs_eq (h : (build g).result = .ok n) {ps : List Nat} (hps : g.Places ps g.inputs) :
    n.inputs = positions ps := by
  obtain ⟨inits, consts, hb⟩ := Network.built h
  exact positions_of_names h hb.inputs hps

theorem outputs_eq (h : (build g).result = .ok n) {ps : List Nat} (hps : g.Places ps g.outputs) :
    n.outputs = positions ps := by
  obtain ⟨inits, consts, hb⟩ := Network.built h
  exact positions_of_names h hb.outputs hps

theorem constant_at (h : (build g).result = .ok n) {t : Onnx.Tensor} (ht : t ∈ g.initializers) {c : Constant}
    (hc : t.toConstant.result = .ok c) {p : Nat} (hp : g.names[p]? = some c.name) :
    n.nodes[p]? = some (.constant c) :=
  getElem?_of_mem h ((constant_mem_nodes h).mpr (Onnx.Graph.mem_constants.mpr (.inl ⟨t, ht, hc⟩))) hp

theorem operator_at (h : (build g).result = .ok n) {m : Onnx.Node} (hm : m ∈ g.operators) {t : OpType} {a : Attrs}
    (htype : OpType.ofName? m.opType = some t) (hrule : (t.rule m g.constantTable).result = .ok a) {p : Nat}
    (hp : g.names[p]? = some m.name) {ps qs : List Nat} (hinputs : g.Places ps m.inputs)
    (houtputs : g.Places qs m.outputs) :
    n.nodes[p]? = some (.operator ⟨m.name, t, a, positions ps, positions qs⟩) := by
  obtain ⟨o, ho, hmade, hin, hout⟩ := exists_of_mem_left (operators_of_build h) hm
  have ht : o.opType = t := Option.some.inj (hmade.opType.symm.trans htype)
  have ha : o.attrs = a := by
    have hattrs := hmade.attrs
    rw [ht, hrule] at hattrs
    exact (Except.ok.inj hattrs).symm
  have heq : o = ⟨m.name, t, a, positions ps, positions qs⟩ := by
    rw [← hmade.name, ← ht, ← ha, ← positions_of_names h hin hinputs, ← positions_of_names h hout houtputs]
  rw [← heq]
  exact getElem?_of_mem h (operator_mem_nodes.mpr ho) (by rw [hp]; exact congrArg some hmade.name.symm)

theorem output_at (h : (build g).result = .ok n) {m : Onnx.Node} (hm : m ∈ g.operators) {name : String}
    (hname : name ∈ m.outputs) {p : Nat} (hp : g.names[p]? = some name) : n.nodes[p]? = some (.value name) := by
  obtain ⟨inits, consts, hb⟩ := Network.built h
  obtain ⟨o, ho, -, -, houtputs⟩ := exists_of_mem_left (operators_of_build h) hm
  obtain ⟨id, hid, hat⟩ := exists_of_mem_right houtputs hname
  obtain ⟨q, hq⟩ := mem_operators.mp ho
  obtain ⟨name', hvalue⟩ := (hb.operatorAt hq).value hid
  rw [nameAt?, hvalue] at hat
  cases hat
  exact getElem?_of_mem h (List.mem_of_getElem? hvalue) hp

/-- A graph input that is no constant is a value. An operator cannot have its name. -/
theorem input_at (h : (build g).result = .ok n) {name : String} (hname : name ∈ g.inputs)
    (hconstant : name ∉ g.constantNames) {p : Nat} (hp : g.names[p]? = some name) :
    n.nodes[p]? = some (.value name) := by
  have hnames := hp
  rw [← map_name_nodes h, List.getElem?_map] at hnames
  obtain ⟨x, hx, rfl⟩ := Option.map_eq_some_iff.mp hnames
  have hmem := List.mem_of_getElem? hx
  rw [hx]
  cases x with
  | constant c => exact absurd (Onnx.Graph.name_mem_constantNames ((constant_mem_nodes h).mp hmem)) hconstant
  | operator o =>
    obtain ⟨m, hm, hmade, -⟩ := exists_of_mem_right (operators_of_build h) (operator_mem_nodes.mp hmem)
    have hdeclared : o.name ∈ g.operators.flatMap Onnx.Node.declared := by
      rw [hmade.name]
      exact List.mem_flatMap.mpr ⟨m, hm, List.mem_append_right _ List.mem_cons_self⟩
    exact absurd hname ((valid_of_build h).newNames _ hdeclared).2
  | value name => rfl

end Network

end NetPack
