import NetPack.Proofs.Build.Position
import NetPack.Proofs.Sample.Graph

/-!
# The sample network at every size

The graph of the sample network is built without findings for every depth whose positions are numbers of 32 bits and
every number of channels whose elements can be counted, and each node of the network stands at a position that
follows from the depth (`build_graph`).
-/

namespace NetPack.Sample

/-- The position of what a block reads: the graph input, or the output of the block in front of it. -/
def source (depth : Nat) : Nat → Nat
  | 0 => 2 * depth + 2
  | i + 1 => 2 * depth + 5 + 4 * i

/-- The nodes of the sample network, each at its position, and the positions of its input and output. The constants
stand in front, then the graph input, then four nodes for each block and eight behind the blocks. -/
structure Placed (depth channels : Nat) (n : Network) : Prop where
  length : n.nodes.length = 6 * depth + 11
  constants : (n.nodes.filterMap Node.constant?).length = 2 * depth + 2
  weight : ∀ i < depth, n.ConstantAt (2 * i) (numbered "conv" i ".weight")
    [UInt32.ofNat channels, UInt32.ofNat channels, 3, 3] (.float (.replicate (channels * channels * 9) hundredth))
  bias : ∀ i < depth, n.ConstantAt (2 * i + 1) (numbered "conv" i ".bias") [UInt32.ofNat channels]
    (.float (.replicate channels .zero))
  flatShape : n.ConstantAt (2 * depth) "flat_shape" [2] (.int [1, -1])
  fcWeight : n.ConstantAt (2 * depth + 1) "fc.weight" [10, UInt32.ofNat channels]
    (.float (.replicate (10 * channels) tenth))
  input : n.nodes[2 * depth + 2]? = some (.value "input")
  sum : ∀ i < depth, n.nodes[2 * depth + 3 + 4 * i]? = some (.value (numbered "conv" i ".out"))
  conv : ∀ i < depth, n.nodes[2 * depth + 4 + 4 * i]? = some (.operator ⟨numbered "conv" i "", .conv,
    .conv 1 (.fixed 1 1 1 1) 1, positions [source depth i, 2 * i, 2 * i + 1], positions [2 * depth + 3 + 4 * i]⟩)
  rectified : ∀ i < depth, n.nodes[2 * depth + 5 + 4 * i]? = some (.value (numbered "relu" i ".out"))
  relu : ∀ i < depth, n.nodes[2 * depth + 6 + 4 * i]? = some (.operator ⟨numbered "relu" i "", .relu, .none,
    positions [2 * depth + 3 + 4 * i], positions [2 * depth + 5 + 4 * i]⟩)
  pooled : n.nodes[6 * depth + 3]? = some (.value "pooled")
  pool : n.nodes[6 * depth + 4]? = some (.operator ⟨"pool", .globalAveragePool, .none,
    positions [source depth depth], positions [6 * depth + 3]⟩)
  flat : n.nodes[6 * depth + 5]? = some (.value "flat")
  flatten : n.nodes[6 * depth + 6]? = some (.operator ⟨"flatten", .reshape, .none,
    positions [6 * depth + 3, 2 * depth], positions [6 * depth + 5]⟩)
  logits : n.nodes[6 * depth + 7]? = some (.value "logits")
  fc : n.nodes[6 * depth + 8]? = some (.operator ⟨"fc", .gemm, .gemm .one .one false true,
    positions [6 * depth + 5, 2 * depth + 1], positions [6 * depth + 7]⟩)
  output : n.nodes[6 * depth + 9]? = some (.value "output")
  softmax : n.nodes[6 * depth + 10]? = some (.operator ⟨"softmax", .softmax, .softmax 1,
    positions [6 * depth + 7], positions [6 * depth + 9]⟩)
  inputs : n.inputs = positions [2 * depth + 2]
  outputs : n.outputs = positions [6 * depth + 9]

variable {depth channels : Nat} {n : Network}

theorem length_initializers : (graph depth channels).initializers.length = 2 * depth + 2 := by
  have hblock (i : Nat) : (blockTensors channels i).length = 2 := rfl
  have hlength := length_flatMap_range hblock depth
  rw [graph, List.length_append, hlength]
  rfl

theorem place_input {i : Nat} (hi : i ≤ depth) :
    (graph depth channels).names[source depth i]? = some (blockInput i) := by
  cases i with
  | zero => exact place_middle (j := 2) rfl rfl
  | succ i => exact place_operator (j := 2) hi rfl (by rw [source]; omega)

theorem mem_block {i j : Nat} {m : Onnx.Node} (hi : i < depth) (hj : (blockNodes i)[j]? = some m) :
    m ∈ (graph depth channels).operators := by
  rw [operators_graph]
  exact List.mem_append_left _
    (List.mem_flatMap.mpr ⟨i, List.mem_range.mpr hi, List.mem_of_getElem? hj⟩)

theorem mem_tail {j : Nat} {m : Onnx.Node} (hj : (tailNodes depth)[j]? = some m) :
    m ∈ (graph depth channels).operators := by
  rw [operators_graph]
  exact List.mem_append_right _ (List.mem_of_getElem? hj)

theorem placed_of_build (hchannels : 9 * channels * channels < 2 ^ 63)
    (h : (Network.build (graph depth channels)).result = .ok n) : Placed depth channels n where
  length := by rw [Network.length_nodes h, names_graph, length_names]
  constants := by rw [Network.length_constants h, constantNodes_graph, length_initializers, List.length_nil]
  weight i hi := by
    obtain ⟨hlength, hc⟩ := toConstant_weight hchannels (numbered "conv" i ".weight")
    refine ⟨hlength, Network.constant_at h ?_ hc (place_constant (j := 0) hi rfl rfl)⟩
    exact List.mem_append_left _ (List.mem_flatMap.mpr ⟨i, List.mem_range.mpr hi, List.mem_cons_self⟩)
  bias i hi := by
    obtain ⟨hlength, hc⟩ := toConstant_bias hchannels (numbered "conv" i ".bias")
    refine ⟨hlength, Network.constant_at h ?_ hc (place_constant (j := 1) hi rfl rfl)⟩
    exact List.mem_append_left _
      (List.mem_flatMap.mpr ⟨i, List.mem_range.mpr hi, List.mem_cons_of_mem _ List.mem_cons_self⟩)
  flatShape := by
    refine ⟨rfl, Network.constant_at h ?_ toConstant_flatShape (place_middle (j := 0) rfl rfl)⟩
    exact List.mem_append_right _ List.mem_cons_self
  fcWeight := by
    obtain ⟨hlength, hc⟩ := toConstant_fcWeight hchannels
    refine ⟨hlength, Network.constant_at h ?_ hc (place_middle (j := 1) rfl rfl)⟩
    exact List.mem_append_right _ (List.mem_cons_of_mem _ List.mem_cons_self)
  input := Network.input_at h List.mem_cons_self input_not_mem (place_middle (j := 2) rfl rfl)
  sum i hi := Network.output_at h (mem_block (j := 0) hi rfl) List.mem_cons_self
    (place_operator (j := 0) hi rfl (by omega))
  conv i hi := by
    refine Network.operator_at h (mem_block (j := 0) hi rfl) settled_conv.opType (settled_conv.rule _)
      (place_operator (j := 1) hi rfl (by omega)) ?_ ?_
    · exact .cons (place_input (Nat.le_of_lt hi))
        (.cons (place_constant (j := 0) hi rfl rfl) (.cons (place_constant (j := 1) hi rfl rfl) .nil))
    · exact .cons (place_operator (j := 0) hi rfl (by omega)) .nil
  rectified i hi := Network.output_at h (mem_block (j := 1) hi rfl) List.mem_cons_self
    (place_operator (j := 2) hi rfl (by omega))
  relu i hi := by
    refine Network.operator_at h (mem_block (j := 1) hi rfl) settled_relu.opType (settled_relu.rule _)
      (place_operator (j := 3) hi rfl (by omega)) ?_ ?_
    · exact .cons (place_operator (j := 0) hi rfl (by omega)) .nil
    · exact .cons (place_operator (j := 2) hi rfl (by omega)) .nil
  pooled := Network.output_at h (mem_tail (j := 0) rfl) List.mem_cons_self (place_tail (j := 0) rfl (by omega))
  pool := Network.operator_at h (mem_tail (j := 0) rfl) settled_pool.opType (settled_pool.rule _)
    (place_tail (j := 1) rfl (by omega)) (.cons (place_input (Nat.le_refl depth)) .nil)
    (.cons (place_tail (j := 0) rfl (by omega)) .nil)
  flat := Network.output_at h (mem_tail (j := 1) rfl) List.mem_cons_self (place_tail (j := 2) rfl (by omega))
  flatten := Network.operator_at h (mem_tail (j := 1) rfl) settled_flatten.opType (settled_flatten.rule _)
    (place_tail (j := 3) rfl (by omega))
    (.cons (place_tail (j := 0) rfl (by omega)) (.cons (place_middle (j := 0) rfl rfl) .nil))
    (.cons (place_tail (j := 2) rfl (by omega)) .nil)
  logits := Network.output_at h (mem_tail (j := 2) rfl) List.mem_cons_self (place_tail (j := 4) rfl (by omega))
  fc := Network.operator_at h (mem_tail (j := 2) rfl) settled_fc.opType (settled_fc.rule _)
    (place_tail (j := 5) rfl (by omega))
    (.cons (place_tail (j := 2) rfl (by omega)) (.cons (place_middle (j := 1) rfl rfl) .nil))
    (.cons (place_tail (j := 4) rfl (by omega)) .nil)
  output := Network.output_at h (mem_tail (j := 3) rfl) List.mem_cons_self (place_tail (j := 6) rfl (by omega))
  softmax := Network.operator_at h (mem_tail (j := 3) rfl) settled_softmax.opType (settled_softmax.rule _)
    (place_tail (j := 7) rfl (by omega)) (.cons (place_tail (j := 4) rfl (by omega)) .nil)
    (.cons (place_tail (j := 6) rfl (by omega)) .nil)
  inputs := Network.inputs_eq h (.cons (place_middle (j := 2) rfl rfl) .nil)
  outputs := Network.outputs_eq h (.cons (place_tail (j := 6) rfl (by omega)) .nil)

/-- The sample graph of any depth and width within the bounds is built without findings, and every node of it stands
where its place in the graph says. -/
theorem build_graph (hdepth : 6 * depth + 11 ≤ 2 ^ 32) (hchannels : 9 * channels * channels < 2 ^ 63) :
    ∃ n, (Network.build (graph depth channels)).result = .ok n ∧
      diagnosticsOf (Network.build (graph depth channels)).log = [] ∧ Placed depth channels n := by
  have hroom : (graph depth channels).names.length ≤ Registry.capacity := by
    rw [names_graph, length_names]
    exact hdepth
  obtain ⟨n, hn⟩ := Network.exists_build hroom (Onnx.Graph.valid_iff.mp (valid_graph hchannels))
  exact ⟨n, hn, (Network.findings_of_build hn).trans findings_graph, placed_of_build hchannels hn⟩

theorem build_graph_two_four : ∃ n, (Network.build (graph 2 4)).result = .ok n ∧
    diagnosticsOf (Network.build (graph 2 4)).log = [] ∧ Placed 2 4 n :=
  build_graph (by decide) (by decide)

end NetPack.Sample
