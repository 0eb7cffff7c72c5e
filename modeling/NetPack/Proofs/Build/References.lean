import NetPack.Proofs.Build.NodeLayout

/-!
# References between the nodes

In a network that was built from a graph no two nodes share a name, every position in it leads to a node
of the name that the graph has there, operators refer to nodes before them, and each of their outputs is
a value that belongs to no other operator (`Network.build_references`). The two last facts come from the
place of the operators alone (`OperatorAt.unique`).
-/

namespace NetPack

namespace Build

/-! ## Outputs -/

/-- Positions that count on from the end of a list name the values that are put there. -/
theorem names_of_range' {before : List Node} {names : List String} {ids : List NodeId}
    (h : ids.map UInt32.toNat = List.range' before.length names.length) (more : List Node) :
    Names (before ++ names.map .value ++ more) ids names := by
  induction names generalizing before ids with
  | nil =>
    obtain rfl := List.map_eq_nil_iff.mp h
    exact .nil
  | cons name names ih =>
    cases ids with
    | nil => cases h
    | cons id ids =>
      rw [List.map_cons, List.length_cons, List.range'_succ, List.cons.injEq] at h
      have hcount : ids.map UInt32.toNat
          = List.range' (before ++ [Node.value name]).length names.length := by simpa using h.2
      have htail := ih hcount
      rw [List.append_assoc before, List.singleton_append] at htail
      refine .cons ?_ htail
      rw [nameAt?, h.1, List.append_assoc, List.getElem?_append_right (Nat.le_refl _), Nat.sub_self]
      rfl

theorem OperatorAt.bounds {ns : List Node} {p : Nat} {o : Operator} (h : OperatorAt ns p o)
    {id : NodeId} (hid : id ∈ o.outputs) : p - o.outputs.length ≤ id.toNat ∧ id.toNat < p := by
  have hmem : id.toNat ∈ o.outputs.map UInt32.toNat := List.mem_map_of_mem hid
  rw [h.outputs, List.mem_range'_1] at hmem
  have hle := h.length_le
  omega

theorem OperatorAt.value {ns : List Node} {p : Nat} {o : Operator} (h : OperatorAt ns p o)
    {id : NodeId} (hid : id ∈ o.outputs) : ∃ name, ns[id.toNat]? = some (.value name) :=
  h.values id.toNat (h.bounds hid).1 (h.bounds hid).2

/-- An output of an operator is no position in front of another one that stands before it: that one would stand
among the values of the operator. -/
theorem OperatorAt.not_lt {ns : List Node} {p q : Nat} {o o' : Operator} (h : OperatorAt ns q o')
    (hp : ns[p]? = some (.operator o)) {id : NodeId} (hlt : id.toNat < p) (hid : id ∈ o'.outputs) :
    ¬p < q := by
  intro hpq
  have hb := h.bounds hid
  obtain ⟨name, hname⟩ := h.values p (by omega) hpq
  cases hp.symm.trans hname

theorem OperatorAt.unique {ns : List Node} {p q : Nat} {o o' : Operator} (h : OperatorAt ns p o)
    (h' : OperatorAt ns q o') (hp : ns[p]? = some (.operator o)) (hq : ns[q]? = some (.operator o'))
    {id : NodeId} (hid : id ∈ o.outputs) (hid' : id ∈ o'.outputs) : q = p := by
  have hle := h'.not_lt hp (h.bounds hid).2 hid'
  have hge := h.not_lt hq (h'.bounds hid').2 hid
  omega

/-! ## Names -/

theorem filterMap_operator?_eq_nil {ns : List Node} (h : ∀ x ∈ ns, x.operator? = none) :
    ns.filterMap Node.operator? = [] :=
  List.filterMap_eq_nil_iff.mpr h

theorem filterMap_operator?_operatorNodes (n : Onnx.Node) (o : Operator) :
    (operatorNodes n o).filterMap Node.operator? = [o] := by
  have hvalues : (n.outputs.map Node.value).filterMap Node.operator? = [] := by
    refine filterMap_operator?_eq_nil fun x hx => ?_
    obtain ⟨name, -, rfl⟩ := List.mem_map.mp hx
    rfl
  rw [operatorNodes, List.filterMap_append, hvalues]
  rfl

/-- The operators of the nodes refer to the names of the ONNX operators that they come from. -/
theorem Appended.names {before after : List Node} {l : List Onnx.Node} (h : Appended before l after) :
    ∃ os, after.filterMap Node.operator? = before.filterMap Node.operator? ++ os ∧
      List.Forall₂ (fun n o => o.name = n.name ∧ Names after o.inputs n.inputs ∧
        Names after o.outputs n.outputs) l os := by
  induction h with
  | nil => exact ⟨[], (List.append_nil _).symm, .nil⟩
  | @cons before after n l o head tail ih =>
    obtain ⟨os, hos, hall⟩ := ih
    obtain ⟨more, rfl⟩ := tail.exists_append
    refine ⟨o :: os, ?_, .cons ⟨head.name, ?_, ?_⟩ hall⟩
    · rw [hos, List.filterMap_append, filterMap_operator?_operatorNodes, List.append_assoc]
      rfl
    · have hinputs := head.inputs.append ([.operator o] ++ more)
      rwa [← List.append_assoc, List.append_assoc before] at hinputs
    · have houtputs := names_of_range' head.outputs ([.operator o] ++ more)
      rwa [← List.append_assoc, List.append_assoc before] at houtputs

end Build

/-! ## The references of a network -/

/-- The positions in a network lead where the graph has it. -/
structure References (g : Onnx.Graph) (n : Network) : Prop where
  nodup : (n.nodes.map Node.name).Nodup
  inputs : Names n.nodes n.inputs g.inputs
  outputs : Names n.nodes n.outputs g.outputs
  operators : List.Forall₂ (fun m o => o.name = m.name ∧ Names n.nodes o.inputs m.inputs ∧
    Names n.nodes o.outputs m.outputs)
    (g.nodes.filter fun m => !m.isConstant) (n.nodes.filterMap Node.operator?)
  ids_lt : ∀ id ∈ n.inputs ++ n.outputs, id.toNat < n.nodes.length
  operator_ids_lt : ∀ o, .operator o ∈ n.nodes → ∀ id ∈ o.inputs ++ o.outputs,
    id.toNat < n.nodes.length
  before : ∀ (p : Nat) (o : Operator), n.nodes[p]? = some (.operator o) →
    ∀ id ∈ o.inputs ++ o.outputs, id.toNat < p
  values : ∀ (p : Nat) (o : Operator), n.nodes[p]? = some (.operator o) → ∀ id ∈ o.outputs,
    ∃ name, n.nodes[id.toNat]? = some (.value name)
  unique : ∀ (p q : Nat) (o o' : Operator), n.nodes[p]? = some (.operator o) →
    n.nodes[q]? = some (.operator o') → ∀ id ∈ o.outputs, id ∈ o'.outputs → q = p

/-- The positions in a network lead where its graph has it: no two nodes share a name, each reference is one to a node
of the name that the graph has there, an operator refers to nodes before it, and its outputs are values that no
other operator has. -/
theorem Network.build_references {g : Onnx.Graph} {n : Network}
    (h : (Network.build g).result = .ok n) : References g n := by
  obtain ⟨inits, consts, hb⟩ := Network.built h
  obtain ⟨os, hos, hall⟩ := hb.appended.names
  rw [Build.filterMap_operator?_eq_nil Build.operator?_leading, List.nil_append] at hos
  have hbefore : ∀ (p : Nat) (o : Operator), n.nodes[p]? = some (.operator o) →
      ∀ id ∈ o.inputs ++ o.outputs, id.toNat < p := by
    intro p o ho id hid
    rcases List.mem_append.mp hid with hid | hid
    · exact (hb.operatorAt ho).inputs_lt id hid
    · exact ((hb.operatorAt ho).bounds hid).2
  refine ⟨hb.nodup, hb.inputs, hb.outputs, hos ▸ hall, ?_, ?_, hbefore, ?_, ?_⟩
  · intro id hid
    rcases List.mem_append.mp hid with hid | hid
    · exact hb.inputs.lt id hid
    · exact hb.outputs.lt id hid
  · intro o ho id hid
    obtain ⟨p, hp⟩ := List.mem_iff_getElem?.mp ho
    exact Nat.lt_trans (hbefore p o hp id hid) (List.getElem?_eq_some_iff.mp hp).choose
  · exact fun p o ho id hid => (hb.operatorAt ho).value hid
  · exact fun p q o o' ho ho' id hid hid' =>
      (hb.operatorAt ho).unique (hb.operatorAt ho') ho ho' hid hid'

theorem references_sumNetwork : References sumGraph sumNetwork :=
  Network.build_references build_sumGraph

end NetPack
