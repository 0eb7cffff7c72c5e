import NetPack.Proofs.Build.Outcome
import NetPack.Proofs.Build.References

/-!
# The flow of data through a network

Tensors and operators share their names, so a reference in a graph may lead to an operator, which is no tensor.
It does so exactly if it has the name of an operator (`Network.build_tensors`).

An operator that reads the output of another one stands behind it. It can read an output of its own only if the
graph says so (`Network.build_dataflow`), and if no operator does, they can run in the order in which they stand,
each on what is computed by then.
-/

namespace NetPack

/-! ## References -/

/-- The operators of a network, in order. -/
def Network.operators (n : Network) : List Operator :=
  n.nodes.filterMap Node.operator?

/-- The positions that a network reads from: the inputs of its operators, and its outputs. -/
def Network.references (n : Network) : List NodeId :=
  n.operators.flatMap Operator.inputs ++ n.outputs

/-- The names that a graph reads from: the inputs of its operators, and its outputs. -/
def Onnx.Graph.references (g : Onnx.Graph) : List String :=
  g.operators.flatMap Onnx.Node.inputs ++ g.outputs

/-- A constant or a value stands at a position. -/
def Network.IsTensor (n : Network) (id : NodeId) : Prop :=
  (∃ c, n.nodes[id.toNat]? = some (.constant c)) ∨ ∃ name, n.nodes[id.toNat]? = some (.value name)

theorem Node.operator?_eq_some_iff {x : Node} {o : Operator} :
    x.operator? = some o ↔ x = .operator o := by
  cases x with
  | constant c => simp [operator?]
  | operator o' => simp [operator?]
  | value name => simp [operator?]

theorem Network.mem_operators {n : Network} {o : Operator} :
    o ∈ n.operators ↔ ∃ p : Nat, n.nodes[p]? = some (.operator o) := by
  unfold operators
  simp only [List.mem_filterMap, Node.operator?_eq_some_iff, exists_eq_right]
  exact List.mem_iff_getElem?

/-- A position leads to a tensor if and only if no operator has its name. -/
theorem Network.isTensor_iff {n : Network} {id : NodeId} {name : String}
    (hnodup : (n.nodes.map Node.name).Nodup) (h : nameAt? n.nodes id = some name) :
    n.IsTensor id ↔ name ∉ n.operators.map Operator.name := by
  obtain ⟨x, hx, rfl⟩ := Option.map_eq_some_iff.mp h
  -- An operator of that name stands at the position, since it can stand nowhere else.
  have hmem : x.name ∈ n.operators.map Operator.name ↔ ∃ o, x = .operator o := by
    constructor
    · intro hname
      obtain ⟨o, ho, hname⟩ := List.mem_map.mp hname
      obtain ⟨p, hp⟩ := Network.mem_operators.mp ho
      exact ⟨o, List.inj_on_of_nodup_map hnodup (List.mem_of_getElem? hx) (List.mem_of_getElem? hp)
        hname.symm⟩
    · rintro ⟨o, rfl⟩
      exact List.mem_map_of_mem (Network.mem_operators.mpr ⟨_, hx⟩)
  rw [hmem]
  unfold IsTensor
  rw [hx]
  cases x with
  | constant c => simp
  | operator o => simp
  | value name => simp

namespace Build

variable {g : Onnx.Graph} {n : Network} {inits consts : List Constant}

/-- The operators of a network come from those of the graph. -/
theorem Built.operators (hb : Built g n inits consts) :
    List.Forall₂ (fun m o => o.name = m.name ∧ Names n.nodes o.inputs m.inputs ∧
      Names n.nodes o.outputs m.outputs) g.operators n.operators := by
  obtain ⟨os, hos, hall⟩ := hb.appended.names
  rw [filterMap_operator?_eq_nil operator?_leading, List.nil_append] at hos
  unfold Network.operators
  rw [hos]
  exact hall

theorem Built.operatorNames (hb : Built g n inits consts) :
    n.operators.map Operator.name = g.operators.map Onnx.Node.name :=
  (map_eq_of_forall₂ hb.operators fun _ _ _ h => h.1.symm).symm

theorem names_inputs {ns : List Node} {l : List Onnx.Node} {os : List Operator}
    (h : List.Forall₂ (fun m o => o.name = m.name ∧ Names ns o.inputs m.inputs ∧
      Names ns o.outputs m.outputs) l os) :
    Names ns (os.flatMap Operator.inputs) (l.flatMap Onnx.Node.inputs) := by
  induction h with
  | nil => exact .nil
  | cons head _ ih => exact List.rel_append head.2.1 ih

theorem Built.references (hb : Built g n inits consts) : Names n.nodes n.references g.references :=
  List.rel_append (names_inputs hb.operators) hb.outputs

end Build

/-- All that a network reads from are tensors if and only if its graph reads from no name of an operator. -/
theorem Network.build_tensors {g : Onnx.Graph} {n : Network} (h : (Network.build g).result = .ok n) :
    (∀ id ∈ n.references, n.IsTensor id) ↔
      ∀ name ∈ g.references, name ∉ g.operators.map Onnx.Node.name := by
  obtain ⟨inits, consts, hb⟩ := Network.built h
  rw [← hb.operatorNames]
  constructor
  · intro htensors name hname
    obtain ⟨id, hid, hat⟩ := exists_of_mem_right hb.references hname
    exact (Network.isTensor_iff hb.nodup hat).mp (htensors id hid)
  · intro hnames id hid
    obtain ⟨name, hname, hat⟩ := exists_of_mem_left hb.references hid
    exact (Network.isTensor_iff hb.nodup hat).mpr (hnames name hname)

theorem tensors_sumNetwork : (Network.build sumGraph).result = .ok sumNetwork ∧
    ∀ id ∈ sumNetwork.references, sumNetwork.IsTensor id :=
  ⟨build_sumGraph, (Network.build_tensors build_sumGraph).mpr (by decide)⟩

def scales : Onnx.Tensor where
  name := "scales"
  dims := [4]
  elementType := 1
  floatData := [.one, .one, ⟨0x40000000⟩, ⟨0x40000000⟩]

/-- An operator without a name, and another one that leaves out an optional input. -/
def unnamedGraph : Onnx.Graph where
  initializers := [scales]
  nodes := [
    { opType := "Relu", inputs := ["x"], outputs := ["y"] },
    { opType := "Resize", name := "resize", inputs := ["y", "", "scales"], outputs := ["z"] }]
  inputs := ["x"]
  outputs := ["z"]

theorem unnamedGraph_reference : ¬∀ n, (Network.build unnamedGraph).result = .ok n →
    ∀ id ∈ n.references, n.IsTensor id := by
  intro htensors
  obtain ⟨n, hn⟩ := Network.exists_build (g := unnamedGraph) (by decide) (by decide)
  obtain ⟨inits, consts, hb⟩ := Network.built hn
  have hempty : "" ∈ unnamedGraph.references := by decide
  obtain ⟨id, hid, hat⟩ := exists_of_mem_right hb.references hempty
  have hnot := (Network.isTensor_iff hb.nodup hat).mp (htensors n hn id hid)
  rw [hb.operatorNames] at hnot
  exact hnot (by decide)

/-! ## The order of operators -/

/-- The positions that a node reads from. Only operators read. -/
def Node.reads : Node → List NodeId
  | operator o => o.inputs
  | constant _ | value _ => []

/-- The positions that a node computes. Only operators compute. -/
def Node.computes : Node → List NodeId
  | operator o => o.outputs
  | constant _ | value _ => []

/-- Going through nodes in order from what is computed, each one finds what it reads, and adds what it
computes. -/
def Executes (computed : NodeId → Prop) : List Node → Prop
  | [] => True
  | x :: ns => (∀ id ∈ x.reads, computed id) ∧ Executes (fun id => computed id ∨ id ∈ x.computes) ns

/-- No node computes what stands at a position, so there is nothing to wait for. -/
def Network.IsGiven (n : Network) (id : NodeId) : Prop :=
  ∀ x ∈ n.nodes, id ∉ x.computes

theorem Node.mem_reads_iff {x : Node} {id : NodeId} :
    id ∈ x.reads ↔ ∃ o, x = .operator o ∧ id ∈ o.inputs := by
  cases x with
  | constant c => simp [reads]
  | operator o => simp [reads]
  | value name => simp [reads]

theorem Node.mem_computes_iff {x : Node} {id : NodeId} :
    id ∈ x.computes ↔ ∃ o, x = .operator o ∧ id ∈ o.outputs := by
  cases x with
  | constant c => simp [computes]
  | operator o => simp [computes]
  | value name => simp [computes]

/-- Nodes can be gone through if what each one reads is there from the start or computed in front of it. -/
theorem executes_iff {computed : NodeId → Prop} {ns : List Node} : Executes computed ns ↔
    ∀ (p : Nat) (x : Node), ns[p]? = some x → ∀ id ∈ x.reads,
      computed id ∨ ∃ q < p, ∃ y, ns[q]? = some y ∧ id ∈ y.computes := by
  induction ns generalizing computed with
  | nil => exact iff_of_true trivial (by simp)
  | cons z ns ih =>
    unfold Executes
    rw [ih]
    constructor
    · rintro ⟨hz, hns⟩ p x hp id hid
      cases p with
      | zero =>
        cases hp
        exact .inl (hz id hid)
      | succ p =>
        rcases hns p x hp id hid with (hcomputed | hidz) | ⟨q, hq, y, hy, hidy⟩
        · exact .inl hcomputed
        · exact .inr ⟨0, Nat.succ_pos p, z, rfl, hidz⟩
        · exact .inr ⟨q + 1, Nat.succ_lt_succ hq, y, hy, hidy⟩
    · intro h
      refine ⟨fun id hid => ?_, fun p x hp id hid => ?_⟩
      · rcases h 0 z rfl id hid with hcomputed | ⟨q, hq, -⟩
        · exact hcomputed
        · exact absurd hq (Nat.not_lt_zero q)
      · rcases h (p + 1) x hp id hid with hcomputed | ⟨q, hq, y, hy, hidy⟩
        · exact .inl (.inl hcomputed)
        · cases q with
          | zero =>
            cases hy
            exact .inl (.inr hidy)
          | succ q => exact .inr ⟨q, Nat.lt_of_succ_lt_succ hq, y, hy, hidy⟩

namespace Build

variable {g : Onnx.Graph} {n : Network} {inits consts : List Constant} {p q : Nat} {o o' : Operator}
  {id : NodeId}

theorem Built.le_of_reads (hb : Built g n inits consts) (hp : n.nodes[p]? = some (.operator o))
    (hq : n.nodes[q]? = some (.operator o')) (hid : id ∈ o.inputs) (hid' : id ∈ o'.outputs) : q ≤ p := by
  have hlt := (hb.operatorAt hp).inputs_lt id hid
  exact Nat.le_of_not_lt ((hb.operatorAt hq).not_lt hp hlt hid')

/-- An operator that reads an output of its own comes from one that does. -/
theorem Built.exists_source (hb : Built g n inits consts) (ho : o ∈ n.operators) (hid : id ∈ o.inputs)
    (hid' : id ∈ o.outputs) : ∃ m ∈ g.operators, m.name = o.name ∧ ∃ x ∈ m.inputs, x ∈ m.outputs ∧
      nameAt? n.nodes id = some x := by
  obtain ⟨m, hm, hname, hinputs, houtputs⟩ := exists_of_mem_right hb.operators ho
  obtain ⟨x, hx, hat⟩ := exists_of_mem_left hinputs hid
  obtain ⟨y, hy, hat'⟩ := exists_of_mem_left houtputs hid'
  cases hat.symm.trans hat'
  exact ⟨m, hm, hname.symm, x, hx, hy, hat⟩

theorem Built.exists_loop (hb : Built g n inits consts) {m : Onnx.Node} (hm : m ∈ g.operators)
    {x : String} (hx : x ∈ m.inputs) (hx' : x ∈ m.outputs) :
    ∃ (p : Nat) (o : Operator) (id : NodeId), n.nodes[p]? = some (.operator o) ∧ id ∈ o.inputs ∧
      id ∈ o.outputs := by
  obtain ⟨o, ho, -, hinputs, houtputs⟩ := exists_of_mem_left hb.operators hm
  obtain ⟨p, hp⟩ := Network.mem_operators.mp ho
  obtain ⟨id, hid, hat⟩ := exists_of_mem_right hinputs hx
  obtain ⟨id', hid', hat'⟩ := exists_of_mem_right houtputs hx'
  cases eq_of_nameAt? hb.nodup hat hat'
  exact ⟨p, o, id, hp, hid, hid'⟩

/-- The nodes can be gone through in order if and only if no operator reads an output of its own. -/
theorem Built.executes_iff (hb : Built g n inits consts) : Executes n.IsGiven n.nodes ↔
    ∀ (p : Nat) (o : Operator), n.nodes[p]? = some (.operator o) → ∀ id ∈ o.inputs, id ∉ o.outputs := by
  rw [NetPack.executes_iff]
  constructor
  · intro h p o hp id hid hid'
    rcases h p (.operator o) hp id hid with hgiven | ⟨q, hq, y, hy, hidy⟩
    · exact hgiven _ (List.mem_of_getElem? hp) hid'
    · obtain ⟨o', rfl, hid''⟩ := Node.mem_computes_iff.mp hidy
      have hsame := (hb.operatorAt hp).unique (hb.operatorAt hy) hp hy hid' hid''
      omega
  · intro h p x hp id hid
    obtain ⟨o, rfl, hid⟩ := Node.mem_reads_iff.mp hid
    by_cases hgiven : n.IsGiven id
    · exact .inl hgiven
    · right
      unfold Network.IsGiven at hgiven
      push Not at hgiven
      obtain ⟨y, hy, hidy⟩ := hgiven
      obtain ⟨q, hq⟩ := List.mem_iff_getElem?.mp hy
      obtain ⟨o', rfl, hid'⟩ := Node.mem_computes_iff.mp hidy
      have hle := hb.le_of_reads hp hq hid hid'
      have hne : q ≠ p := by
        rintro rfl
        cases hp.symm.trans hq
        exact h q o hp id hid hid'
      exact ⟨q, by omega, .operator o', hq, hidy⟩

end Build

/-- An operator that reads an output of an operator stands behind it, or is the same one and reads an output of its own
in the graph too. The operators can run in the order in which they stand exactly if none of the graph does that. -/
theorem Network.build_dataflow {g : Onnx.Graph} {n : Network} (h : (Network.build g).result = .ok n) :
    (∀ (p q : Nat) (o o' : Operator), n.nodes[p]? = some (.operator o) →
      n.nodes[q]? = some (.operator o') → ∀ id ∈ o.inputs, id ∈ o'.outputs →
        q < p ∨ q = p ∧ ∃ m ∈ g.operators, m.name = o.name ∧ ∃ x ∈ m.inputs, x ∈ m.outputs ∧
          nameAt? n.nodes id = some x) ∧
      (Executes n.IsGiven n.nodes ↔ ∀ m ∈ g.operators, ∀ x ∈ m.inputs, x ∉ m.outputs) := by
  obtain ⟨inits, consts, hb⟩ := Network.built h
  constructor
  · intro p q o o' hp hq id hid hid'
    rcases Nat.lt_or_eq_of_le (hb.le_of_reads hp hq hid hid') with hlt | rfl
    · exact .inl hlt
    · cases hp.symm.trans hq
      exact .inr ⟨rfl, hb.exists_source (Network.mem_operators.mpr ⟨q, hp⟩) hid hid'⟩
  · rw [hb.executes_iff]
    constructor
    · intro hnone m hm x hx hx'
      obtain ⟨p, o, id, hp, hid, hid'⟩ := hb.exists_loop hm hx hx'
      exact hnone p o hp id hid hid'
    · intro hnone p o hp id hid hid'
      obtain ⟨m, hm, -, x, hx, hx', -⟩ :=
        hb.exists_source (Network.mem_operators.mpr ⟨p, hp⟩) hid hid'
      exact hnone m hm x hx hx'

/-- Two operators: the second one reads what the first one computes. -/
def chainGraph : Onnx.Graph where
  nodes := [
    { opType := "Relu", name := "relu", inputs := ["x"], outputs := ["y"] },
    { opType := "Add", name := "add", inputs := ["x", "y"], outputs := ["z"] }]
  inputs := ["x"]
  outputs := ["z"]

theorem chainGraph_executes : ∃ n, (Network.build chainGraph).result = .ok n ∧
    Executes n.IsGiven n.nodes := by
  obtain ⟨n, hn⟩ := Network.exists_build (g := chainGraph) (by decide) (by decide)
  exact ⟨n, hn, (Network.build_dataflow hn).2.mpr (by decide)⟩

/-- An operator that reads its own output. -/
def loopGraph : Onnx.Graph where
  nodes := [{ opType := "Relu", name := "r", inputs := ["y"], outputs := ["y"] }]
  outputs := ["y"]

theorem loopGraph_reads_itself : ¬∀ n, (Network.build loopGraph).result = .ok n →
    ∀ (p q : Nat) (o o' : Operator), n.nodes[p]? = some (.operator o) →
      n.nodes[q]? = some (.operator o') → ∀ id ∈ o.inputs, id ∈ o'.outputs → q < p := by
  intro hforward
  obtain ⟨n, hn⟩ := Network.exists_build (g := loopGraph) (by decide) (by decide)
  obtain ⟨inits, consts, hb⟩ := Network.built hn
  have hm : { opType := "Relu", name := "r", inputs := ["y"], outputs := ["y"] } ∈ loopGraph.operators := by
    decide
  obtain ⟨p, o, id, hp, hid, hid'⟩ := hb.exists_loop hm List.mem_cons_self List.mem_cons_self
  exact Nat.lt_irrefl p (hforward n hn p p o o hp hp id hid hid')

end NetPack
