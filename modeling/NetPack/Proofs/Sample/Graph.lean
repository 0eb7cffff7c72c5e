import NetPack.Proofs.Build.Findings
import NetPack.Proofs.Onnx.RawData
import NetPack.Proofs.Sample.Names

/-!
# The graph of the sample network

The names of the nodes that the graph is built into are those of the sample network (`names_graph`), and each of them
has a place that follows from the depth (`place_constant` and those after it).

The graph is valid whatever the depth and the number of channels are, as long as the elements of its tensors can be
counted (`valid_graph`): they are as many as the shapes ask for, the names differ, what an operator reads is declared
in front of it, and the rules do not look at any constant. Nothing is found in the graph (`findings_graph`).
-/

namespace NetPack.Sample

variable {depth channels : Nat}

/-! ## Constants -/

theorem unsignedOf_ofNat {d : Nat} (h : d < 2 ^ 32) :
    FitsUnsigned (Int64.ofNat d) ∧ unsignedOf (Int64.ofNat d) = UInt32.ofNat d := by
  have hd : (Int64.ofNat d).toInt = d := Int64.toInt_ofNat_of_lt (by omega)
  refine ⟨⟨by omega, by omega⟩, ?_⟩
  rw [unsignedOf, hd, Int.toNat_natCast]

theorem toConstant_floatTensor {name : String} {dims : List Nat} {v : Single} {count : Nat}
    (hdims : ∀ d ∈ dims, d < 2 ^ 32) (hcount : elementCount? (dims.map UInt32.ofNat) = some count) :
    ∃ hlength, (floatTensor name dims v count).toConstant.result
      = .ok ⟨name, dims.map UInt32.ofNat, .float (.replicate count v), hlength⟩ := by
  have hshape : (floatTensor name dims v count).HasShape := by
    intro d hd
    obtain ⟨k, hk, rfl⟩ := List.mem_map.mp hd
    exact (unsignedOf_ofNat (hdims k hk)).1
  have hwords : (floatTensor name dims v count).words = dims.map UInt32.ofNat :=
    List.map_map.trans (List.map_congr_left fun k hk => (unsignedOf_ofNat (hdims k hk)).2)
  have hlength : elementCount? (dims.map UInt32.ofNat) = some (Elements.float (.replicate count v)).length := by
    rw [hcount, Elements.length, List.length_replicate]
  have helements : (floatTensor name dims v count).elements name = ⟨[], .ok (.float (.replicate count v))⟩ :=
    (Onnx.Values.float (.replicate count v)).elements_typed name (dims.map Int64.ofNat)
  refine ⟨hlength, ?_⟩
  rw [Onnx.Tensor.toConstant, Onnx.Tensor.toConstantNamed, Onnx.Tensor.shape_of_hasShape hshape, hwords,
    show (floatTensor name dims v count).name = name from rfl, helements, ← Constant.of?_of_eq hlength]
  rfl

theorem lt_of_weights (h : 9 * channels * channels < 2 ^ 63) : channels < 2 ^ 32 := by
  by_contra hge
  have hsquare : 2 ^ 32 * 2 ^ 32 ≤ channels * channels :=
    Nat.mul_le_mul (Nat.le_of_not_lt hge) (Nat.le_of_not_lt hge)
  rw [Nat.mul_assoc] at h
  omega

theorem toNat_channels (h : channels < 2 ^ 32) : (UInt32.ofNat channels).toNat = channels :=
  Registry.toNat_ofNat h

theorem count_weight (h : 9 * channels * channels < 2 ^ 63) :
    elementCount? ([channels, channels, 3, 3].map UInt32.ofNat) = some (channels * channels * 9) := by
  have hlt := lt_of_weights h
  rw [Nat.mul_assoc] at h
  have hlimit : countLimit = 2 ^ 64 := rfl
  have h₁ : channels < countLimit := by omega
  have h₂ : channels * channels < countLimit := by omega
  have h₃ : channels * channels * 3 < countLimit := by omega
  have h₄ : channels * channels * 3 * 3 < countLimit := by omega
  simp [elementCount?, toNat_channels hlt, h₁, h₂, h₃, h₄]
  omega

theorem count_bias (h : channels < 2 ^ 32) : elementCount? ([channels].map UInt32.ofNat) = some channels := by
  have hlimit : countLimit = 2 ^ 64 := rfl
  have h₁ : channels < countLimit := by omega
  simp [elementCount?, toNat_channels h, h₁]

theorem count_fcWeight (h : channels < 2 ^ 32) :
    elementCount? ([10, channels].map UInt32.ofNat) = some (10 * channels) := by
  have hlimit : countLimit = 2 ^ 64 := rfl
  have h₁ : 10 < countLimit := by omega
  have h₂ : 10 * channels < countLimit := by omega
  simp [elementCount?, toNat_channels h, h₁, h₂]

theorem toConstant_weight (h : 9 * channels * channels < 2 ^ 63) (name : String) : ∃ hlength,
    (floatTensor name [channels, channels, 3, 3] hundredth (channels * channels * 9)).toConstant.result
      = .ok ⟨name, [UInt32.ofNat channels, UInt32.ofNat channels, 3, 3],
        .float (.replicate (channels * channels * 9) hundredth), hlength⟩ := by
  have hlt := lt_of_weights h
  exact toConstant_floatTensor (by simpa using hlt) (count_weight h)

theorem toConstant_bias (h : 9 * channels * channels < 2 ^ 63) (name : String) : ∃ hlength,
    (floatTensor name [channels] .zero channels).toConstant.result
      = .ok ⟨name, [UInt32.ofNat channels], .float (.replicate channels .zero), hlength⟩ := by
  have hlt := lt_of_weights h
  exact toConstant_floatTensor (by simpa using hlt) (count_bias hlt)

theorem toConstant_fcWeight (h : 9 * channels * channels < 2 ^ 63) : ∃ hlength,
    (floatTensor "fc.weight" [10, channels] tenth (10 * channels)).toConstant.result
      = .ok ⟨"fc.weight", [10, UInt32.ofNat channels], .float (.replicate (10 * channels) tenth), hlength⟩ := by
  have hlt := lt_of_weights h
  exact toConstant_floatTensor (by simpa using hlt) (count_fcWeight hlt)

theorem toConstant_flatShape : (int64Tensor "flat_shape" [2] [1, -1]).toConstant.result
    = .ok ⟨"flat_shape", [2], .int [1, -1], rfl⟩ := rfl

/-! ## Operators -/

/-- An operator has a type and attributes whatever the constants are, and nothing is found in it. -/
structure Settled (m : Onnx.Node) (t : OpType) (a : Attrs) : Prop where
  opType : OpType.ofName? m.opType = some t
  rule : ∀ constants, (t.rule m constants).result = .ok a
  findings : m.findings = []

/-- No type is called `Constant`. -/
theorem Settled.isConstant_eq_false {m : Onnx.Node} {t : OpType} {a : Attrs} (h : Settled m t a) :
    m.isConstant = false := by
  have hnone : OpType.ofName? Onnx.Node.constantType = none := by decide
  rw [Onnx.Node.isConstant, beq_eq_false_iff_ne]
  intro heq
  cases (heq ▸ hnone).symm.trans h.opType

theorem settled_conv {name : String} {inputs outputs : List String} : Settled
    { opType := "Conv", name, inputs, outputs,
      attributes := [intsAttribute "kernel_shape" [3, 3], intsAttribute "pads" [1, 1, 1, 1],
        intsAttribute "strides" [1, 1]] } .conv (.conv 1 (.fixed 1 1 1 1) 1) :=
  ⟨rfl, fun _ => rfl, rfl⟩

theorem settled_relu {name : String} {inputs outputs : List String} :
    Settled { opType := "Relu", name, inputs, outputs } .relu .none :=
  ⟨rfl, fun _ => rfl, rfl⟩

theorem settled_pool {name : String} {inputs outputs : List String} :
    Settled { opType := "GlobalAveragePool", name, inputs, outputs } .globalAveragePool .none :=
  ⟨rfl, fun _ => rfl, rfl⟩

theorem settled_flatten {name : String} {inputs outputs : List String} :
    Settled { opType := "Reshape", name, inputs, outputs } .reshape .none :=
  ⟨rfl, fun _ => rfl, rfl⟩

theorem settled_fc {name : String} {inputs outputs : List String} :
    Settled { opType := "Gemm", name, inputs, outputs, attributes := [intAttribute "transB" 1] } .gemm
      (.gemm .one .one false true) :=
  ⟨rfl, fun _ => rfl, rfl⟩

theorem settled_softmax {name : String} {inputs outputs : List String} :
    Settled { opType := "Softmax", name, inputs, outputs, attributes := [intAttribute "axis" 1] } .softmax
      (.softmax 1) :=
  ⟨rfl, fun _ => rfl, rfl⟩

theorem exists_settled {m : Onnx.Node} (h : m ∈ (graph depth channels).nodes) : ∃ t a, Settled m t a := by
  rcases List.mem_append.mp h with h | h
  · obtain ⟨i, -, h⟩ := List.mem_flatMap.mp h
    simp only [blockNodes, List.mem_cons, List.not_mem_nil, or_false] at h
    rcases h with rfl | rfl
    · exact ⟨_, _, settled_conv⟩
    · exact ⟨_, _, settled_relu⟩
  · simp only [tailNodes, List.mem_cons, List.not_mem_nil, or_false] at h
    rcases h with rfl | rfl | rfl | rfl
    · exact ⟨_, _, settled_pool⟩
    · exact ⟨_, _, settled_flatten⟩
    · exact ⟨_, _, settled_fc⟩
    · exact ⟨_, _, settled_softmax⟩

/-! ## Names -/

theorem isConstant_eq_false {m : Onnx.Node} (h : m ∈ (graph depth channels).nodes) : m.isConstant = false := by
  obtain ⟨t, a, hsettled⟩ := exists_settled h
  exact hsettled.isConstant_eq_false

theorem constantNodes_graph : (graph depth channels).constantNodes = [] :=
  List.filter_eq_nil_iff.mpr fun m hm => by rw [isConstant_eq_false hm]; decide

theorem operators_graph : (graph depth channels).operators
    = (List.range depth).flatMap blockNodes ++ tailNodes depth :=
  List.filter_eq_self.mpr fun m hm => by rw [isConstant_eq_false hm]; rfl

theorem constantNames_graph : (graph depth channels).constantNames
    = (List.range depth).flatMap (blockNames constantParts) ++ ["flat_shape", "fc.weight"] := by
  rw [Onnx.Graph.constantNames, constantNodes_graph]
  simp only [graph, List.map_append, List.map_flatMap, List.filterMap_nil, List.append_nil]
  rfl

theorem declared_graph : (graph depth channels).operators.flatMap Onnx.Node.declared
    = (List.range depth).flatMap (blockNames operatorParts) ++ tailNames := by
  rw [operators_graph, List.flatMap_append, List.flatMap_assoc]
  rfl

/-- The graph input stands between the names of the constants and those that operators declare. -/
theorem names_eq : names depth = (graph depth channels).constantNames
    ++ "input" :: (graph depth channels).operators.flatMap Onnx.Node.declared := by
  rw [constantNames_graph, declared_graph, List.append_assoc]
  rfl

theorem nodup_graph : ("input" :: ((graph depth channels).constantNames
    ++ (graph depth channels).operators.flatMap Onnx.Node.declared)).Nodup := by
  rw [← List.nodup_middle, ← names_eq]
  exact nodup_names depth

theorem input_not_mem : "input" ∉ (graph depth channels).constantNames :=
  fun h => (List.nodup_cons.mp nodup_graph).1 (List.mem_append_left _ h)

theorem names_graph : (graph depth channels).names = names depth := by
  have hinput : ((graph depth channels).inputs.filter fun i =>
      !(graph depth channels).constantNames.contains i) = ["input"] :=
    List.filter_cons_of_pos (by simpa using input_not_mem)
  rw [Onnx.Graph.names, hinput, @names_eq depth channels, List.append_assoc]
  rfl

/-! ## Places -/

section Places

variable {i j p : Nat} {q : String × String} {name : String}

theorem place_constant (hi : i < depth) (hj : constantParts[j]? = some q) (hp : p = 2 * i + j) :
    (graph depth channels).names[p]? = some (numbered q.1 i q.2) := by
  have hlt : j < 2 := (List.getElem?_eq_some_iff.mp hj).choose
  have hlength := length_constants depth
  have hblock := @getElem?_flatMap_range _ (blockNames constantParts) 2 (fun _ => rfl) depth i j hi hlt
  rw [names_graph, hp, names, List.getElem?_append_left (by omega), hblock, blockNames, List.getElem?_map, hj,
    Option.map_some]

theorem place_middle (hj : middleNames[j]? = some name) (hp : p = 2 * depth + j) :
    (graph depth channels).names[p]? = some name := by
  have hlt : j < middleNames.length := (List.getElem?_eq_some_iff.mp hj).choose
  have hlength := length_constants depth
  rw [names_graph, hp, names, List.getElem?_append_right (by omega), hlength, Nat.add_sub_cancel_left,
    List.getElem?_append_left hlt, hj]

theorem place_behind (hp : p = 2 * depth + 3 + j) : (graph depth channels).names[p]?
    = ((List.range depth).flatMap (blockNames operatorParts) ++ tailNames)[j]? := by
  have hlength := length_constants depth
  have hmiddle : middleNames.length = 3 := rfl
  rw [names_graph, hp, names, List.getElem?_append_right (by omega), hlength,
    List.getElem?_append_right (by omega), hmiddle]
  congr 1
  omega

theorem place_operator (hi : i < depth) (hj : operatorParts[j]? = some q) (hp : p = 2 * depth + 3 + (4 * i + j)) :
    (graph depth channels).names[p]? = some (numbered q.1 i q.2) := by
  have hlt : j < 4 := (List.getElem?_eq_some_iff.mp hj).choose
  have hlength := length_operators depth
  have hblock := @getElem?_flatMap_range _ (blockNames operatorParts) 4 (fun _ => rfl) depth i j hi hlt
  rw [place_behind hp, List.getElem?_append_left (by omega), hblock, blockNames, List.getElem?_map, hj,
    Option.map_some]

theorem place_tail (hj : tailNames[j]? = some name) (hp : p = 2 * depth + 3 + (4 * depth + j)) :
    (graph depth channels).names[p]? = some name := by
  have hlength := length_operators depth
  rw [place_behind hp, List.getElem?_append_right (by omega), hlength, Nat.add_sub_cancel_left, hj]

end Places

/-! ## Order -/

/-- The inputs of an operator that are not declared, given the operators in front of it. -/
def undeclared (depth channels : Nat) (before : List Onnx.Node) (m : Onnx.Node) : List String :=
  m.inputs.filter fun x =>
    !((graph depth channels).constantNames ++ ["input"] ++ before.flatMap Onnx.Node.declared).contains x

theorem mem_constantNames {i : Nat} (hi : i < depth) {q : String × String} (hq : q ∈ constantParts) :
    numbered q.1 i q.2 ∈ (graph depth channels).constantNames := by
  rw [constantNames_graph]
  exact List.mem_append_left _ (mem_blocks.mpr ⟨i, hi, q, hq, rfl⟩)

theorem blockInput_mem (k : Nat) :
    blockInput k ∈ ["input"] ++ ((List.range k).flatMap blockNodes).flatMap Onnx.Node.declared := by
  cases k with
  | zero => exact List.mem_cons_self
  | succ k =>
    rw [List.range_succ, List.flatMap_append, List.flatMap_append]
    simp [blockInput, blockNodes, Onnx.Node.declared]

theorem undeclared_eq_nil_iff {before : List Onnx.Node} {m : Onnx.Node} :
    undeclared depth channels before m = [] ↔ ∀ x ∈ m.inputs,
      x ∈ (graph depth channels).constantNames ∨ x ∈ ["input"] ++ before.flatMap Onnx.Node.declared := by
  rw [undeclared, Onnx.filter_not_contains_eq_nil_iff, List.append_assoc]
  simp only [List.mem_append]

theorem undeclared_block {k : Nat} (hk : k < depth) :
    inTurn (undeclared depth channels) ((List.range k).flatMap blockNodes) (blockNodes k) = [] := by
  have hweight := @mem_constantNames depth channels k hk ("conv", ".weight") (by decide)
  have hbias := @mem_constantNames depth channels k hk ("conv", ".bias") (by decide)
  simp only [blockNodes, inTurn, List.append_eq_nil_iff, undeclared_eq_nil_iff, List.forall_mem_cons]
  refine ⟨⟨.inr (blockInput_mem k), .inl hweight, .inl hbias, by simp⟩, ⟨.inr ?_, by simp⟩, trivial⟩
  simp [Onnx.Node.declared]

theorem undeclared_blocks {k : Nat} (hk : k ≤ depth) :
    inTurn (undeclared depth channels) [] ((List.range k).flatMap blockNodes) = [] := by
  induction k with
  | zero => rfl
  | succ k ih =>
    rw [List.range_succ, List.flatMap_append, List.flatMap_singleton, inTurn_append, ih (Nat.le_of_succ_le hk)]
    exact undeclared_block hk

theorem undeclared_tail :
    inTurn (undeclared depth channels) ((List.range depth).flatMap blockNodes) (tailNodes depth) = [] := by
  have hshape : "flat_shape" ∈ (graph depth channels).constantNames := by
    rw [constantNames_graph]
    exact List.mem_append_right _ (by decide)
  have hweight : "fc.weight" ∈ (graph depth channels).constantNames := by
    rw [constantNames_graph]
    exact List.mem_append_right _ (by decide)
  simp only [tailNodes, inTurn, List.append_eq_nil_iff, undeclared_eq_nil_iff, List.forall_mem_cons]
  refine ⟨⟨.inr (blockInput_mem depth), by simp⟩, ⟨.inr ?_, .inl hshape, by simp⟩,
    ⟨.inr ?_, .inl hweight, by simp⟩, ⟨.inr ?_, by simp⟩, trivial⟩
  all_goals simp [Onnx.Node.declared]

theorem undeclared_graph : inTurn (undeclared depth channels) [] (graph depth channels).operators = [] := by
  rw [operators_graph, inTurn_append, undeclared_blocks (Nat.le_refl depth)]
  exact undeclared_tail

/-! ## The graph -/

theorem valid_graph (hchannels : 9 * channels * channels < 2 ^ 63) : (graph depth channels).Valid where
  initializers t ht := by
    rcases List.mem_append.mp ht with ht | ht
    · obtain ⟨i, -, ht⟩ := List.mem_flatMap.mp ht
      simp only [blockTensors, List.mem_cons, List.not_mem_nil, or_false] at ht
      rcases ht with rfl | rfl
      · exact ⟨_, (toConstant_weight hchannels _).choose_spec⟩
      · exact ⟨_, (toConstant_bias hchannels _).choose_spec⟩
    · simp only [tailTensors, List.mem_cons, List.not_mem_nil, or_false] at ht
      rcases ht with rfl | rfl
      · exact ⟨_, toConstant_flatShape⟩
      · exact ⟨_, (toConstant_fcWeight hchannels).choose_spec⟩
  constants m hm := by
    rw [constantNodes_graph] at hm
    exact absurd hm List.not_mem_nil
  constantNames := (List.nodup_cons.mp nodup_graph).2.of_append_left
  names := (List.nodup_cons.mp (@nodup_graph depth channels)).2.of_append_right
  newNames name hname := by
    obtain ⟨hinput, hnodup⟩ := List.nodup_cons.mp (@nodup_graph depth channels)
    refine ⟨fun h => (List.disjoint_of_nodup_append hnodup) h hname, fun h => hinput ?_⟩
    rw [← List.mem_singleton.mp h]
    exact List.mem_append_right _ hname
  inputs before m after hm x hx := by
    have hdeclared := undeclared_eq_nil_iff.mp (inTurn_eq_nil_iff.mp undeclared_graph before m after hm) x hx
    rw [List.mem_append] at hdeclared
    tauto
  rules m hm := by
    obtain ⟨t, a, hsettled⟩ := exists_settled (List.mem_of_mem_filter hm)
    exact ⟨t, t.mem_all, OpType.name_of_ofName?_eq_some hsettled.opType, a, hsettled.rule _⟩
  outputs o ho := by
    rw [declared_graph, List.mem_singleton.mp ho]
    exact .inr (.inr (List.mem_append_right _ (by decide)))

theorem findings_graph : (graph depth channels).findings = [] := by
  have hinitializers : ∀ t ∈ (graph depth channels).initializers, clampings t.name t.integers = [] := by
    intro t ht
    rcases List.mem_append.mp ht with ht | ht
    · obtain ⟨i, -, ht⟩ := List.mem_flatMap.mp ht
      simp only [blockTensors, List.mem_cons, List.not_mem_nil, or_false] at ht
      rcases ht with rfl | rfl <;> rfl
    · simp only [tailTensors, List.mem_cons, List.not_mem_nil, or_false] at ht
      rcases ht with rfl | rfl <;> rfl
  have hoperators : ∀ m ∈ (graph depth channels).operators, m.findings = [] := by
    intro m hm
    obtain ⟨t, a, hsettled⟩ := exists_settled (List.mem_of_mem_filter hm)
    exact hsettled.findings
  rw [Onnx.Graph.findings, constantNodes_graph, List.flatMap_eq_nil_iff.mpr hinitializers,
    List.flatMap_eq_nil_iff.mpr hoperators]
  rfl

end NetPack.Sample
