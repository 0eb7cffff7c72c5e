import NetPack.Proofs.Build.Attributes
import NetPack.Proofs.Build.Findings

/-!
# The order of declarations

A graph whose initializers, operators, inputs and outputs are declared in another order is built into the same
network up to the positions of its nodes, and with the same findings (`Network.build_reordered`). The order
matters only between operators, since what an operator reads has to be declared by then: as long as the
operators that are no constants keep theirs, the other graph is built as well.
-/

namespace NetPack

/-! ## Graphs in another order -/

theorem nodup_eraseDups (l : List String) : l.eraseDups.Nodup := by
  cases l with
  | nil => exact List.nodup_nil
  | cons x l =>
    rw [List.eraseDups_cons, List.nodup_cons, List.mem_eraseDups]
    exact ⟨by simp, nodup_eraseDups _⟩
termination_by l.length
decreasing_by exact Nat.lt_succ_of_le (List.length_filter_le _ _)

namespace Onnx

/-- The second graph declares what the first one does, in any order. -/
structure Graph.Reordered (g g' : Graph) : Prop where
  initializers : g.initializers.Perm g'.initializers
  nodes : g.nodes.Perm g'.nodes
  inputs : g.inputs.Perm g'.inputs
  outputs : g.outputs.Perm g'.outputs

namespace Graph.Reordered

variable {g g' : Graph}

theorem symm (h : g.Reordered g') : g'.Reordered g :=
  ⟨h.initializers.symm, h.nodes.symm, h.inputs.symm, h.outputs.symm⟩

theorem constantNodes (h : g.Reordered g') : g.constantNodes.Perm g'.constantNodes :=
  h.nodes.filter _

theorem operators (h : g.Reordered g') : g.operators.Perm g'.operators :=
  h.nodes.filter _

theorem constants (h : g.Reordered g') : g.constants.Perm g'.constants :=
  ((h.initializers.map _).append (h.constantNodes.map _)).filterMap _

theorem constantNames (h : g.Reordered g') : g.constantNames.Perm g'.constantNames :=
  (h.initializers.map _).append (h.constantNodes.filterMap _)

theorem names (h : g.Reordered g') : g.names.Perm g'.names := by
  refine (h.constantNames.append ?_).append (h.operators.flatMap_right _)
  refine (List.perm_ext_iff_of_nodup (nodup_eraseDups _) (nodup_eraseDups _)).mpr fun name => ?_
  simp [h.constantNames.mem_iff, h.inputs.mem_iff]

theorem findings (h : g.Reordered g') : g.findings.Perm g'.findings :=
  ((h.initializers.flatMap_right _).append (h.constantNodes.flatMap_right _)).append
    (h.operators.flatMap_right _)

/-- The tables of the constants are the same if the names of the constants differ. -/
theorem constantTable_eq (h : g.Reordered g')
    (hinj : ∀ a ∈ g.constants, ∀ b ∈ g.constants, a.name = b.name → a = b) :
    g'.constantTable = g.constantTable := by
  have hinj' : ∀ a ∈ g'.constants, ∀ b ∈ g'.constants, a.name = b.name → a = b := fun a ha b hb =>
    hinj a (h.constants.mem_iff.mpr ha) b (h.constants.mem_iff.mpr hb)
  funext name
  refine Option.ext fun c => ?_
  unfold constantTable
  rw [ConstantTable.ofList_eq_some_iff hinj', ConstantTable.ofList_eq_some_iff hinj, h.constants.mem_iff]

/-- A graph stays valid as long as the operators that are no constants keep their order. -/
theorem valid (h : g.Reordered g') (hoperators : g'.operators = g.operators)
    (htable : g'.constantTable = g.constantTable) (hv : g.Valid) : g'.Valid where
  initializers t ht := hv.initializers t (h.initializers.mem_iff.mpr ht)
  constants m hm := hv.constants m (h.constantNodes.mem_iff.mpr hm)
  constantNames := h.constantNames.nodup_iff.mp hv.constantNames
  names := by
    rw [hoperators]
    exact hv.names
  newNames name hname := by
    rw [hoperators] at hname
    rw [← h.constantNames.mem_iff, ← h.inputs.mem_iff]
    exact hv.newNames name hname
  inputs before m after hm i hi := by
    rw [hoperators] at hm
    rw [← h.constantNames.mem_iff, ← h.inputs.mem_iff]
    exact hv.inputs before m after hm i hi
  rules m hm := by
    rw [hoperators] at hm
    rw [htable]
    exact hv.rules m hm
  outputs o ho := by
    rw [hoperators, ← h.constantNames.mem_iff, ← h.inputs.mem_iff]
    exact hv.outputs o (h.outputs.mem_iff.mpr ho)

end Graph.Reordered

end Onnx

/-! ## Networks with other positions -/

/-- Positions in two lists of nodes lead to nodes of the same names, in the same order. -/
def SameNames (ns ns' : List Node) (ids ids' : List NodeId) : Prop :=
  ∃ names, Names ns ids names ∧ Names ns' ids' names

/-- Nodes in two lists differ in nothing but the positions that they refer to, which lead to the same names. -/
inductive Alike (ns ns' : List Node) : Node → Node → Prop
  | constant (c : Constant) : Alike ns ns' (.constant c) (.constant c)
  | operator {o o' : Operator} (name : o.name = o'.name) (opType : o.opType = o'.opType)
      (attrs : o.attrs = o'.attrs) (inputs : SameNames ns ns' o.inputs o'.inputs)
      (outputs : SameNames ns ns' o.outputs o'.outputs) : Alike ns ns' (.operator o) (.operator o')
  | value (name : String) : Alike ns ns' (.value name) (.value name)

theorem Alike.name_eq {ns ns' : List Node} {x x' : Node} (h : Alike ns ns' x x') : x.name = x'.name := by
  cases h with
  | constant c => rfl
  | operator name => exact name
  | value name => rfl

open Build (Made)

namespace Network

/-- Two networks are the same but for the positions of the nodes, and the order of the inputs and outputs. -/
structure Renumbered (n n' : Network) : Prop where
  names : (n.nodes.map Node.name).Perm (n'.nodes.map Node.name)
  nodes : ∀ x ∈ n.nodes, ∀ x' ∈ n'.nodes, x.name = x'.name → Alike n.nodes n'.nodes x x'
  inputs : ∃ names names', Names n.nodes n.inputs names ∧ Names n'.nodes n'.inputs names' ∧ names.Perm names'
  outputs : ∃ names names', Names n.nodes n.outputs names ∧ Names n'.nodes n'.outputs names' ∧
    names.Perm names'

variable {g g' : Onnx.Graph} {n n' : Network}

/-- The names of the nodes of a network can be read off the graph. -/
theorem map_name_nodes (h : (Network.build g).result = .ok n) : n.nodes.map Node.name = g.names := by
  obtain ⟨inits, consts, hb⟩ := Network.built h
  have hconstants : ((inits ++ consts).map Constant.name) = g.constantNames := by
    rw [← Build.names_constants, List.map_append,
      Build.names_of_made Build.name_of_toConstant hb.constants.inits,
      Build.names_of_made Build.head?_of_toConstant hb.constants.consts, List.filterMap_eq_map']
    rfl
  rw [hb.appended.map_name, Build.leading, Build.newNames, List.map_append, Build.names_constants, hconstants,
    List.map_map, show Node.name ∘ Node.value = id from rfl, List.map_id]
  rfl

theorem length_names_le (h : (Network.build g).result = .ok n) : g.names.length ≤ Registry.capacity := by
  obtain ⟨r, hnodes, hholding, -⟩ := exists_holding h
  rw [← map_name_nodes h, List.length_map, ← hnodes, Array.length_toList]
  exact hholding.sound.le_capacity

theorem valid_of_build (h : (Network.build g).result = .ok n) : g.Valid := by
  rw [Onnx.Graph.valid_iff]
  cases hg : g.violations with
  | nil => rfl
  | cons e es => cases h.symm.trans (build_of_violations (length_names_le h) hg)

theorem findings_of_build (h : (Network.build g).result = .ok n) :
    diagnosticsOf (Network.build g).log = g.findings := by
  obtain ⟨r, hruns, -⟩ := Network.result_build_eq_ok_iff.mp h
  exact (diagnosticsOf_build_of_runs hruns).trans (Build.found_graph hruns).1

/-- The operators of a network are made with the constants of the graph, and refer to names as in the graph. -/
theorem operators_of_build (h : (Network.build g).result = .ok n) :
    List.Forall₂ (fun m o => Made g.constantTable m o ∧ Names n.nodes o.inputs m.inputs ∧
      Names n.nodes o.outputs m.outputs) g.operators n.operators := by
  obtain ⟨inits, consts, hb⟩ := Network.built h
  obtain ⟨r, -, -, hmade⟩ := exists_holding h
  exact List.Forall₂.mp (fun m o hm hnames => ⟨hm, hnames.2⟩) hmade hb.operators

theorem operator_mem_nodes {o : Operator} : .operator o ∈ n.nodes ↔ o ∈ n.operators := by
  rw [mem_operators, List.mem_iff_getElem?]

theorem exists_alike_constant (hg : g.Reordered g') (h : (Network.build g).result = .ok n)
    (h' : (Network.build g').result = .ok n') {c : Constant} (hc : .constant c ∈ n.nodes) :
    ∃ x' ∈ n'.nodes, Alike n.nodes n'.nodes (.constant c) x' := by
  refine ⟨.constant c, ?_, .constant c⟩
  rw [constant_mem_nodes h']
  exact hg.constants.mem_iff.mp ((constant_mem_nodes h).mp hc)

theorem exists_alike_operator (hg : g.Reordered g') (h : (Network.build g).result = .ok n)
    (h' : (Network.build g').result = .ok n') {o : Operator} (ho : .operator o ∈ n.nodes) :
    ∃ x' ∈ n'.nodes, Alike n.nodes n'.nodes (.operator o) x' := by
  obtain ⟨m, hm, hmade, hinputs, houtputs⟩ :=
    exists_of_mem_right (operators_of_build h) (operator_mem_nodes.mp ho)
  obtain ⟨o', ho', hmade', hinputs', houtputs'⟩ :=
    exists_of_mem_left (operators_of_build h') (hg.operators.mem_iff.mp hm)
  rw [hg.constantTable_eq (eq_of_constant_name h)] at hmade'
  have htype : o.opType = o'.opType := Option.some.inj (hmade.opType.symm.trans hmade'.opType)
  have hattrs : o.attrs = o'.attrs := by
    have hrule := hmade'.attrs
    rw [← htype] at hrule
    exact Except.ok.inj (hmade.attrs.symm.trans hrule)
  exact ⟨.operator o', operator_mem_nodes.mpr ho', .operator (hmade.name.trans hmade'.name.symm) htype hattrs
    ⟨m.inputs, hinputs, hinputs'⟩ ⟨m.outputs, houtputs, houtputs'⟩⟩

theorem eq_of_name (h : (Network.build g).result = .ok n) {x y : Node} (hx : x ∈ n.nodes) (hy : y ∈ n.nodes)
    (hname : x.name = y.name) : x = y := by
  obtain ⟨inits, consts, hb⟩ := Network.built h
  exact List.inj_on_of_nodup_map hb.nodup hx hy hname

/-- Nodes of one name are alike. A node that is no value has a partner, which is the only one of its name; so
the partner of a value can be nothing else than a value. -/
theorem alike_of_name (hg : g.Reordered g') (h : (Network.build g).result = .ok n)
    (h' : (Network.build g').result = .ok n') {x x' : Node} (hx : x ∈ n.nodes) (hx' : x' ∈ n'.nodes)
    (hname : x.name = x'.name) : Alike n.nodes n'.nodes x x' := by
  cases x with
  | constant c =>
    obtain ⟨y, hy, halike⟩ := exists_alike_constant hg h h' hx
    exact eq_of_name h' hy hx' (halike.name_eq.symm.trans hname) ▸ halike
  | operator o =>
    obtain ⟨y, hy, halike⟩ := exists_alike_operator hg h h' hx
    exact eq_of_name h' hy hx' (halike.name_eq.symm.trans hname) ▸ halike
  | value name =>
    cases x' with
    | constant c =>
      obtain ⟨y, hy, halike⟩ := exists_alike_constant hg.symm h' h hx'
      obtain rfl := eq_of_name h hy hx (halike.name_eq.symm.trans hname.symm)
      cases halike
    | operator o =>
      obtain ⟨y, hy, halike⟩ := exists_alike_operator hg.symm h' h hx'
      obtain rfl := eq_of_name h hy hx (halike.name_eq.symm.trans hname.symm)
      cases halike
    | value name' =>
      obtain rfl : name = name' := hname
      exact .value name

theorem renumbered (hg : g.Reordered g') (h : (Network.build g).result = .ok n)
    (h' : (Network.build g').result = .ok n') : n.Renumbered n' := by
  obtain ⟨inits, consts, hb⟩ := Network.built h
  obtain ⟨inits', consts', hb'⟩ := Network.built h'
  refine ⟨?_, fun x hx x' hx' => alike_of_name hg h h' hx hx', ⟨_, _, hb.inputs, hb'.inputs, hg.inputs⟩,
    ⟨_, _, hb.outputs, hb'.outputs, hg.outputs⟩⟩
  rw [map_name_nodes h, map_name_nodes h']
  exact hg.names

theorem exists_build_reordered (hg : g.Reordered g') (hoperators : g.operators = g'.operators)
    (h : (Network.build g).result = .ok n) : ∃ n', (Network.build g').result = .ok n' := by
  have htable := hg.constantTable_eq (eq_of_constant_name h)
  have hvalid := hg.valid hoperators.symm htable (valid_of_build h)
  refine exists_build ?_ (Onnx.Graph.valid_iff.mp hvalid)
  rw [← hg.names.length_eq]
  exact length_names_le h

/-- Graphs with the same declarations in another order become networks that differ in the numbering of the nodes alone,
with the same findings in some order. If the operators keep their order, the one is built if the other is. -/
theorem build_reordered (hg : g.Reordered g') :
    (∀ n n', (Network.build g).result = .ok n → (Network.build g').result = .ok n' → n.Renumbered n' ∧
      (diagnosticsOf (Network.build g).log).Perm (diagnosticsOf (Network.build g').log)) ∧
      (g.operators = g'.operators → (∃ n, (Network.build g).result = .ok n) →
        ∃ n', (Network.build g').result = .ok n') := by
  constructor
  · intro n n' h h'
    refine ⟨renumbered hg h h', ?_⟩
    rw [findings_of_build h, findings_of_build h']
    exact hg.findings
  · rintro hoperators ⟨n, h⟩
    exact exists_build_reordered hg hoperators h

end Network

/-- A constant with an element out of range, declared by an operator. -/
def largeConstant : Onnx.Node where
  opType := "Constant"
  outputs := ["large"]
  attributes := [{ name := "value_int", type := 2, int := 4294967296 }]

/-- A graph with several declarations of each sort. -/
def orderedGraph : Onnx.Graph where
  initializers := [{ name := "lowest", elementType := 6, int32Data := [-1] },
    { name := "w", dims := [1], elementType := 7, int64Data := [-2147483648] }]
  nodes := [reluOperator, highestConstant, clipOperator, largeConstant]
  inputs := ["x", "v"]
  outputs := ["y", "z"]

/-- The same declarations in another order, where only the operators that are no constants keep theirs. -/
def reorderedGraph : Onnx.Graph where
  initializers := [{ name := "w", dims := [1], elementType := 7, int64Data := [-2147483648] },
    { name := "lowest", elementType := 6, int32Data := [-1] }]
  nodes := [largeConstant, reluOperator, clipOperator, highestConstant]
  inputs := ["v", "x"]
  outputs := ["z", "y"]

theorem reordered_orderedGraph : ∃ n n', (Network.build orderedGraph).result = .ok n ∧
    (Network.build reorderedGraph).result = .ok n' ∧ n.Renumbered n' ∧
    (diagnosticsOf (Network.build orderedGraph).log).Perm
      (diagnosticsOf (Network.build reorderedGraph).log) := by
  have hreordered : orderedGraph.Reordered reorderedGraph :=
    ⟨by decide, by decide, by decide, by decide⟩
  have hbuild := Network.build_reordered hreordered
  obtain ⟨n, h⟩ := Network.exists_build (g := orderedGraph) (by decide) (by decide +kernel)
  obtain ⟨n', h'⟩ := hbuild.2 (by decide) ⟨n, h⟩
  exact ⟨n, n', h, h', hbuild.1 n n' h h'⟩

end NetPack
