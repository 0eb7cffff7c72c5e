import NetPack.Proofs.Build.Outcome

/-!
# The order of the nodes

The nodes of a network are the constants, the graph inputs that are no constants, and then each operator
behind the values that it computes, all in source order and nothing else (`Network.build_layout`). Where
an operator stands therefore tells its outputs (`Built.operatorAt`).
-/

namespace NetPack

namespace Build

theorem Converted.length_outputs {before : List Node} {n : Onnx.Node} {o : Operator}
    (h : Converted before n o) : o.outputs.length = n.outputs.length := by
  simpa using congrArg List.length h.outputs

/-! ## Blocks -/

/-- The nodes of the operators of a graph, block by block. -/
def blocks (l : List Onnx.Node) (os : List Operator) : List Node :=
  (List.zipWith operatorNodes l os).flatten

theorem Appended.blocks_eq {before after : List Node} {l : List Onnx.Node}
    (h : Appended before l after) :
    ∃ os, List.Forall₂ (fun n o => o.name = n.name ∧ OpType.ofName? n.opType = some o.opType ∧
        o.outputs.length = n.outputs.length) l os ∧ after = before ++ blocks l os := by
  induction h with
  | nil => exact ⟨[], .nil, (List.append_nil _).symm⟩
  | @cons before after n l o head _ ih =>
    obtain ⟨os, hos, rfl⟩ := ih
    refine ⟨o :: os, .cons ⟨head.name, head.opType, head.length_outputs⟩ hos, ?_⟩
    rw [blocks, blocks, List.zipWith_cons_cons, List.flatten_cons, List.append_assoc]

/-! ## The place of an operator -/

/-- What the place of an operator among the nodes tells of it: its outputs are the values right in front
of it, and its inputs are somewhere before it. -/
structure OperatorAt (ns : List Node) (p : Nat) (o : Operator) : Prop where
  inputs_lt : ∀ id ∈ o.inputs, id.toNat < p
  length_le : o.outputs.length ≤ p
  outputs : o.outputs.map UInt32.toNat = List.range' (p - o.outputs.length) o.outputs.length
  values : ∀ j, p - o.outputs.length ≤ j → j < p → ∃ name, ns[j]? = some (.value name)

theorem Converted.operatorAt {before : List Node} {n : Onnx.Node} {o : Operator}
    (h : Converted before n o) (more : List Node) :
    OperatorAt (before ++ operatorNodes n o ++ more) (before.length + n.outputs.length) o := by
  have hlength := h.length_outputs
  refine ⟨?_, by omega, ?_, ?_⟩
  · intro id hid
    simpa using h.inputs.lt id hid
  · rw [hlength, Nat.add_sub_cancel]
    exact h.outputs
  · intro j hge hlt
    have hj : j - before.length < n.outputs.length := by omega
    refine ⟨n.outputs[j - before.length], ?_⟩
    rw [operatorNodes, List.append_assoc, List.getElem?_append_right (by omega),
      List.append_assoc, List.getElem?_append_left (by simpa using hj), List.getElem?_map,
      List.getElem?_eq_getElem hj, Option.map_some]

/-- The induction is over the operators; an operator stands in the first block or behind it. -/
theorem Appended.operatorAt {before after : List Node} {l : List Onnx.Node}
    (h : Appended before l after) {p : Nat} {o : Operator} (hp : before.length ≤ p)
    (ho : after[p]? = some (.operator o)) : OperatorAt after p o := by
  induction h with
  | nil =>
    rw [List.getElem?_eq_none hp] at ho
    cases ho
  | @cons before after n l o' head tail ih =>
    obtain ⟨more, rfl⟩ := tail.exists_append
    have hblock : (before ++ operatorNodes n o').length
        = before.length + n.outputs.length + 1 := by
      simp [operatorNodes, Nat.add_assoc]
    by_cases hlast : before.length + n.outputs.length < p
    · exact ih (by omega) ho
    · by_cases heq : p = before.length + n.outputs.length
      · subst heq
        have hat : (before ++ operatorNodes n o' ++ more)[before.length + n.outputs.length]?
            = some (.operator o') := by
          rw [List.getElem?_append_left (by omega), List.getElem?_append_right (by omega)]
          simp [operatorNodes]
        cases ho.symm.trans hat
        exact head.operatorAt more
      · have hlength := head.length_outputs
        obtain ⟨name, hname⟩ := (head.operatorAt more).values p (by omega) (by omega)
        cases ho.symm.trans hname

theorem names_constants (inits consts : List Constant) :
    (inits.map Node.constant ++ consts.map Node.constant).map Node.name
      = (inits ++ consts).map Constant.name := by
  rw [← List.map_append, List.map_map]
  rfl

/-- There are no operators in front of the first block. -/
theorem operator?_leading {g : Onnx.Graph} {inits consts : List Constant} :
    ∀ x ∈ leading g inits consts, x.operator? = none := by
  intro x hx
  simp only [leading, List.mem_append, List.mem_map] at hx
  rcases hx with (⟨c, -, rfl⟩ | ⟨c, -, rfl⟩) | ⟨name, -, rfl⟩
  all_goals rfl

theorem Built.operatorAt {g : Onnx.Graph} {n : Network} {inits consts : List Constant}
    (h : Built g n inits consts) {p : Nat} {o : Operator} (ho : n.nodes[p]? = some (.operator o)) :
    OperatorAt n.nodes p o := by
  refine h.appended.operatorAt (Nat.le_of_not_lt fun hlt => ?_) ho
  obtain ⟨more, hmore⟩ := h.appended.exists_append
  rw [← hmore, List.getElem?_append_left hlt] at ho
  cases operator?_leading _ (List.mem_of_getElem? ho)

end Build

/-! ## The layout -/

open Build (blocks)

/-- The nodes of a network are those of a graph, in the order of the format: the constants of the
initializers, those of the operators of type `Constant`, a value for each further graph input, and then
each other operator behind its values. -/
structure Layout (g : Onnx.Graph) (n : Network) (inits consts : List Constant) (os : List Operator) :
    Prop where
  initializers : List.Forall₂ (fun t c => t.toConstant.result = .ok c) g.initializers inits
  constants : List.Forall₂ (fun m c => m.toConstant.result = .ok c)
    (g.nodes.filter fun m => m.isConstant) consts
  operators : List.Forall₂ (fun m o => o.name = m.name ∧ OpType.ofName? m.opType = some o.opType ∧
    o.outputs.length = m.outputs.length) (g.nodes.filter fun m => !m.isConstant) os
  nodes : n.nodes = inits.map .constant ++ consts.map .constant
    ++ ((g.inputs.filter fun i => !((inits ++ consts).map Constant.name).contains i).eraseDups).map
      .value
    ++ blocks (g.nodes.filter fun m => !m.isConstant) os
  outputs : ∀ p o, n.nodes[p]? = some (.operator o) → o.outputs.length ≤ p ∧
    o.outputs.map UInt32.toNat = List.range' (p - o.outputs.length) o.outputs.length

/-- Every network that is built has the nodes of its graph in the order of the format with nothing in between, and the
outputs of an operator are the positions right in front of it. -/
theorem Network.build_layout {g : Onnx.Graph} {n : Network} (h : (Network.build g).result = .ok n) :
    ∃ inits consts os, Layout g n inits consts os := by
  obtain ⟨inits, consts, hb⟩ := Network.built h
  obtain ⟨os, hos, hnodes⟩ := hb.appended.blocks_eq
  refine ⟨inits, consts, os, hb.constants.inits, hb.constants.consts, hos, ?_, ?_⟩
  · rw [hnodes, Build.leading, Build.newNames, Build.names_constants]
  · intro p o ho
    exact ⟨(hb.operatorAt ho).length_le, (hb.operatorAt ho).outputs⟩

def sumOperator : Onnx.Node where
  opType := "Add"
  name := "sum"
  inputs := ["x", "w"]
  outputs := ["y"]

/-- A sum of a graph input and an initializer, which is listed as a graph input too. -/
def sumGraph : Onnx.Graph where
  initializers := [{ name := "w", elementType := 1, floatData := [.one] }]
  nodes := [sumOperator]
  inputs := ["w", "x", "x"]
  outputs := ["y"]

def sumNetwork : Network where
  nodes := [.constant ⟨"w", [], .float [.one], rfl⟩, .value "x", .value "y",
    .operator ⟨"sum", .add, .none, [1, 0], [2]⟩]
  inputs := [0, 1, 1]
  outputs := [2]

theorem built_sumGraph : Build.Built sumGraph sumNetwork [⟨"w", [], .float [.one], rfl⟩] [] where
  nodup := by decide
  inputs := .cons rfl (.cons rfl (.cons rfl .nil))
  outputs := .cons rfl .nil
  constants := ⟨.cons rfl .nil, .nil⟩
  appended := .cons (o := ⟨"sum", .add, .none, [1, 0], [2]⟩) ⟨rfl, rfl, rfl, .cons rfl (.cons rfl .nil), rfl⟩ .nil

theorem build_sumGraph : (Network.build sumGraph).result = .ok sumNetwork :=
  Network.build_of_built (by decide) (by decide) built_sumGraph

theorem layout_sumNetwork : ∃ inits consts os, Layout sumGraph sumNetwork inits consts os :=
  Network.build_layout build_sumGraph

end NetPack
