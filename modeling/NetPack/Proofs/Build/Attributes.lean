import NetPack.Proofs.Build.Dataflow
import NetPack.Proofs.Build.Outcome

/-!
# The constants that operators are made with

The attributes of an operator may be read from constants, which are looked up in the registry as it is when the
operator is converted. What is found there is always the same: the constants of the whole graph
(`Holding.constant?_eq`), wherever the operator stands and whatever was registered in front of it. So the
attributes of each operator are those that its rule reads from the graph alone (`Network.build_attributes`).
-/

namespace NetPack

namespace Build

variable {r r' : Registry} {cs : List Constant} {os : List Operator}

/-! ## Constants and operators of a registry -/

/-- The constants and the operators among the nodes of a registry, in order. -/
structure Holding (r : Registry) (cs : List Constant) (os : List Operator) : Prop where
  sound : r.Sound
  constants : r.nodes.toList.filterMap Node.constant? = cs
  operators : r.nodes.toList.filterMap Node.operator? = os

theorem Holding.empty : Holding .empty [] [] :=
  ⟨Registry.sound_empty, rfl, rfl⟩

theorem Holding.grown {l : List Node} (h : Holding r cs os) (hg : Grown r l r') :
    Holding r' (cs ++ l.filterMap Node.constant?) (os ++ l.filterMap Node.operator?) := by
  refine ⟨hg.sound, ?_, ?_⟩
  · rw [hg.nodes, List.filterMap_append, h.constants]
  · rw [hg.nodes, List.filterMap_append, h.operators]

theorem filterMap_operator?_constants (cs : List Constant) :
    (cs.map Node.constant).filterMap Node.operator? = [] := by
  rw [List.filterMap_map]
  exact List.filterMap_eq_nil_iff.mpr fun _ _ => rfl

theorem filterMap_operator?_values (names : List String) :
    (names.map Node.value).filterMap Node.operator? = [] := by
  rw [List.filterMap_map]
  exact List.filterMap_eq_nil_iff.mpr fun _ _ => rfl

theorem Holding.constantsGrown {cs' : List Constant} (h : Holding r cs os)
    (hg : Grown r (cs'.map .constant) r') : Holding r' (cs ++ cs') os := by
  have hgrown := h.grown hg
  rwa [filterMap_constant?_constants, filterMap_operator?_constants, List.append_nil] at hgrown

theorem Holding.valuesGrown {names : List String} (h : Holding r cs os)
    (hg : Grown r (names.map .value) r') : Holding r' cs os := by
  have hgrown := h.grown hg
  rwa [filterMap_constant?_values, filterMap_operator?_values, List.append_nil, List.append_nil] at hgrown

theorem Holding.operatorGrown {o : Operator} (h : Holding r cs os) (hg : Grown r [.operator o] r') :
    Holding r' cs (os ++ [o]) := by
  have hgrown := h.grown hg
  rwa [show [Node.operator o].filterMap Node.constant? = [] from rfl, List.append_nil,
    show [Node.operator o].filterMap Node.operator? = [o] from rfl] at hgrown

/-- The constants are looked up in a registry as in the list of them. -/
theorem Holding.constant?_eq (h : Holding r cs os) : r.constant? = .ofList cs := by
  rw [h.sound.constant?_eq, h.constants]

/-! ## Operators -/

/-- An operator is what an ONNX operator becomes if its rule looks constants up in a table. -/
structure Made (constants : ConstantTable) (m : Onnx.Node) (o : Operator) : Prop where
  name : o.name = m.name
  opType : OpType.ofName? m.opType = some o.opType
  attrs : (o.opType.rule m constants).result = .ok o.attrs

theorem Holding.made {m : Onnx.Node} {outputs : List NodeId} {o : Operator} (h : Holding r cs os)
    (hrun : Runs (operator m outputs) r o r') : Made (.ofList cs) m o ∧ r' = r := by
  obtain ⟨rfl, hname, htype, hattrs, -⟩ := operator_run h.sound hrun
  rw [h.constant?_eq, result_attrs] at hattrs
  exact ⟨⟨hname, htype, hattrs⟩, rfl⟩

theorem Holding.addOperator {m : Onnx.Node} {u : Unit} (h : Holding r cs os)
    (hrun : Runs (addOperator m) r u r') :
    ∃ o, Made (.ofList cs) m o ∧ Holding r' cs (os ++ [o]) := by
  obtain ⟨outputs, r₁, hvalues, h₁⟩ := runs_bind.mp hrun
  obtain ⟨o, r₂, ho, h₂⟩ := runs_bind.mp h₁
  obtain ⟨id, r₃, hadd, h₃⟩ := runs_bind.mp h₂
  have hvalued := h.valuesGrown (values_run h.sound hvalues).1
  obtain ⟨hmade, rfl⟩ := hvalued.made ho
  obtain ⟨-, rfl⟩ := runs_pure.mp h₃
  exact ⟨o, hmade, hvalued.operatorGrown (.of_add hvalued.sound hadd)⟩

/-- Operators are added without a change to the constants, so each one sees the same of them. -/
theorem Holding.addOperators {l : List Onnx.Node} {u : Unit} (h : Holding r cs os)
    (hrun : Runs (l.forM Build.addOperator) r u r') :
    ∃ os', List.Forall₂ (Made (.ofList cs)) l os' ∧ Holding r' cs (os ++ os') := by
  induction l generalizing r os with
  | nil =>
    rw [runs_forM_nil] at hrun
    subst hrun
    exact ⟨[], .nil, by rwa [List.append_nil]⟩
  | cons m l ih =>
    obtain ⟨r₁, hhead, htail⟩ := runs_forM_cons.mp hrun
    obtain ⟨o, hmade, h₁⟩ := h.addOperator hhead
    obtain ⟨os', hall, h₂⟩ := ih h₁ htail
    rw [List.append_assoc] at h₂
    exact ⟨o :: os', .cons hmade hall, h₂⟩

/-! ## Graphs -/

/-- The steps of building that come before all operators. They give the positions of the graph inputs. -/
def opening (g : Onnx.Graph) : Build (List NodeId) := do
  g.initializers.forM fun t => do
    let _ ← addConstant t.toConstant
  g.constantNodes.forM fun n => do
    let _ ← addConstant n.toConstant
  g.inputs.mapM addInput

/-- The steps of building that come behind some operators, of which those that are left are given. -/
def closing (g : Onnx.Graph) (later : List Onnx.Node) (inputs : List NodeId) :
    Build (List NodeId × List NodeId) := do
  later.forM addOperator
  let outputs ← g.outputs.mapM fun o => position (.unknownGraphOutput o) o
  pure (inputs, outputs)

theorem graph_eq_opening (g : Onnx.Graph) : graph g = opening g >>= closing g g.operators := by
  unfold graph opening
  simp only [bind_assoc]
  rfl

/-- The steps of building that are taken before an ONNX operator is converted, which is the next one behind
the earlier ones. They give the positions of the graph inputs and of the outputs of the operator. -/
def upTo (g : Onnx.Graph) (earlier : List Onnx.Node) (m : Onnx.Node) : Build (List NodeId × List NodeId) := do
  let inputs ← opening g
  earlier.forM addOperator
  let outputs ← m.outputs.mapM fun o => add (.value o)
  pure (inputs, outputs)

/-- The conversion of an operator is one of the steps of building. -/
theorem graph_eq_upTo {g : Onnx.Graph} {earlier later : List Onnx.Node} {m : Onnx.Node}
    (h : g.operators = earlier ++ m :: later) :
    graph g = upTo g earlier m >>= fun p => operator m p.2 >>= fun o => add (.operator o) >>= fun _ =>
      closing g later p.1 := by
  rw [graph_eq_opening, h]
  unfold upTo closing
  simp only [List.forM_eq_forM, List.forM_append, List.forM_cons, addOperator, bind_assoc, pure_bind]

theorem ConstantsOf.constants_eq {g : Onnx.Graph} {inits consts : List Constant}
    (h : ConstantsOf g inits consts) : g.constants = inits ++ consts := by
  unfold Onnx.Graph.constants
  rw [List.filterMap_append, filterMap_made h.inits]
  exact congrArg (inits ++ ·) (filterMap_made h.consts)

/-- In front of all operators the constants of the graph are registered. -/
theorem holding_opening {g : Onnx.Graph} {ids : List NodeId} (h : Runs (opening g) .empty ids r) :
    Holding r g.constants [] := by
  obtain ⟨u₁, r₁, hinits, h₁⟩ := runs_bind.mp h
  obtain ⟨u₂, r₂, hconsts, hinputs⟩ := runs_bind.mp h₁
  obtain ⟨inits, hi, hg₁⟩ := constants_run Registry.sound_empty hinits
  obtain ⟨consts, hc, hg₂⟩ := constants_run hg₁.sound hconsts
  have hholding := (Holding.empty.constantsGrown hg₁).constantsGrown hg₂
  rw [List.nil_append, ← ConstantsOf.constants_eq ⟨hi, hc⟩] at hholding
  exact hholding.valuesGrown (inputs_run hholding.sound hinputs).1

theorem Holding.closing {g : Onnx.Graph} {later : List Onnx.Node} {inputs : List NodeId}
    {p : List NodeId × List NodeId} (h : Holding r cs os) (hrun : Runs (closing g later inputs) r p r') :
    ∃ os', List.Forall₂ (Made (.ofList cs)) later os' ∧ Holding r' cs (os ++ os') := by
  obtain ⟨u, r₁, hoperators, h₁⟩ := runs_bind.mp hrun
  obtain ⟨ids, r₂, houtputs, h₂⟩ := runs_bind.mp h₁
  obtain ⟨-, rfl⟩ := runs_pure.mp h₂
  obtain ⟨os', hall, hholding⟩ := h.addOperators hoperators
  obtain ⟨rfl, -⟩ := positions_run hholding.sound houtputs
  exact ⟨os', hall, hholding⟩

theorem holding_graph {g : Onnx.Graph} {p : List NodeId × List NodeId} (h : Runs (graph g) .empty p r) :
    ∃ os, List.Forall₂ (Made g.constantTable) g.operators os ∧ Holding r g.constants os := by
  rw [graph_eq_opening] at h
  obtain ⟨inputs, r₁, hopening, hclosing⟩ := runs_bind.mp h
  exact (holding_opening hopening).closing hclosing

/-- Up to the conversion of an operator the operators in front of it are registered as well. -/
theorem holding_upTo {g : Onnx.Graph} {earlier : List Onnx.Node} {m : Onnx.Node}
    {p : List NodeId × List NodeId} (h : Runs (upTo g earlier m) .empty p r) :
    ∃ os, List.Forall₂ (Made g.constantTable) earlier os ∧ Holding r g.constants os := by
  obtain ⟨inputs, r₁, hopening, h₁⟩ := runs_bind.mp h
  obtain ⟨u, r₂, hoperators, h₂⟩ := runs_bind.mp h₁
  obtain ⟨ids, r₃, hvalues, h₃⟩ := runs_bind.mp h₂
  obtain ⟨-, rfl⟩ := runs_pure.mp h₃
  obtain ⟨os, hall, hholding⟩ := (holding_opening hopening).addOperators hoperators
  exact ⟨os, hall, hholding.valuesGrown (values_run hholding.sound hvalues).1⟩

end Build

/-! ## The attributes of a network -/

open Build (Made)

theorem Onnx.Graph.mem_constants {g : Onnx.Graph} {c : Constant} : c ∈ g.constants ↔
    (∃ t ∈ g.initializers, t.toConstant.result = .ok c) ∨
      ∃ m ∈ g.constantNodes, m.toConstant.result = .ok c := by
  have hmade : ∀ x : Reported Constant, x.result.toOption = some c ↔ x.result = .ok c := by
    intro x
    cases x.result <;> simp [Except.toOption]
  simp only [constants, List.mem_filterMap, List.mem_append, List.mem_map, hmade]
  constructor
  · rintro ⟨_, ⟨t, ht, rfl⟩ | ⟨m, hm, rfl⟩, hc⟩
    · exact .inl ⟨t, ht, hc⟩
    · exact .inr ⟨m, hm, hc⟩
  · rintro (⟨t, ht, hc⟩ | ⟨m, hm, hc⟩)
    · exact ⟨_, .inl ⟨t, ht, rfl⟩, hc⟩
    · exact ⟨_, .inr ⟨m, hm, rfl⟩, hc⟩

namespace Network

variable {g : Onnx.Graph} {n : Network}

/-- A network comes from a registry that holds the constants of the graph and operators made with them. -/
theorem exists_holding (h : (Network.build g).result = .ok n) : ∃ r, r.nodes.toList = n.nodes ∧
    Build.Holding r g.constants n.operators ∧
    List.Forall₂ (Made g.constantTable) g.operators n.operators := by
  obtain ⟨r, hruns, hnodes⟩ := Network.result_build_eq_ok_iff.mp h
  obtain ⟨os, hall, hholding⟩ := Build.holding_graph hruns
  have hoperators : n.operators = os := by
    unfold operators
    rw [← hnodes, hholding.operators]
  rw [hoperators]
  exact ⟨r, hnodes, hholding, hall⟩

/-- When an operator of a network was converted, the constants of the graph were those of the registry. -/
theorem exists_moment {earlier later : List Onnx.Node} {m : Onnx.Node}
    (h : (Network.build g).result = .ok n) (hm : g.operators = earlier ++ m :: later) :
    ∃ p r o, Build.Runs (Build.upTo g earlier m) .empty p r ∧ Build.Runs (Build.operator m p.2) r o r ∧
      r.constant? = g.constantTable ∧ Made g.constantTable m o ∧
      n.operators[earlier.length]? = some o := by
  obtain ⟨r', hruns, hnodes⟩ := Network.result_build_eq_ok_iff.mp h
  rw [Build.graph_eq_upTo hm] at hruns
  obtain ⟨p, r, hupTo, h₁⟩ := Build.runs_bind.mp hruns
  obtain ⟨o, r₁, ho, h₂⟩ := Build.runs_bind.mp h₁
  obtain ⟨id, r₂, hadd, hclosing⟩ := Build.runs_bind.mp h₂
  obtain ⟨os, hall, hholding⟩ := Build.holding_upTo hupTo
  obtain ⟨hmade, rfl⟩ := hholding.made ho
  have hadded := hholding.operatorGrown (.of_add hholding.sound hadd)
  obtain ⟨os', -, hfinal⟩ := hadded.closing hclosing
  refine ⟨p, r₁, o, hupTo, ho, hholding.constant?_eq, hmade, ?_⟩
  unfold operators
  rw [← hnodes, hfinal.operators, hall.length_eq, List.append_assoc,
    List.getElem?_append_right (Nat.le_refl _), Nat.sub_self]
  rfl

/-- The constants among the nodes of a network are those of the graph. -/
theorem constant_mem_nodes (h : (Network.build g).result = .ok n) {c : Constant} :
    .constant c ∈ n.nodes ↔ c ∈ g.constants := by
  obtain ⟨r, hnodes, hholding, -⟩ := exists_holding h
  rw [← hnodes, ← hholding.constants, mem_filterMap_constant?]

theorem eq_of_constant_name (h : (Network.build g).result = .ok n) : ∀ a ∈ g.constants, ∀ b ∈ g.constants,
    a.name = b.name → a = b := by
  intro a ha b hb hname
  obtain ⟨inits, consts, hbuilt⟩ := Network.built h
  cases List.inj_on_of_nodup_map hbuilt.nodup ((constant_mem_nodes h).mpr ha)
    ((constant_mem_nodes h).mpr hb) hname
  rfl

/-- The table of the constants of a graph has each of them under its name. -/
theorem constantTable_eq_some_iff (h : (Network.build g).result = .ok n) {name : String} {c : Constant} :
    g.constantTable name = some c ↔ c ∈ g.constants ∧ c.name = name :=
  ConstantTable.ofList_eq_some_iff (eq_of_constant_name h)

/-- When an operator is converted, the constants that are found are those of the whole graph, wherever they are declared,
and its attributes are those that its rule reads from them. -/
theorem build_attributes (h : (Network.build g).result = .ok n) :
    (∀ name c, g.constantTable name = some c ↔ c.name = name ∧
      ((∃ t ∈ g.initializers, t.toConstant.result = .ok c) ∨
        ∃ m ∈ g.constantNodes, m.toConstant.result = .ok c)) ∧
      ∀ earlier m later, g.operators = earlier ++ m :: later → ∃ p r o,
        Build.Runs (Build.upTo g earlier m) .empty p r ∧ Build.Runs (Build.operator m p.2) r o r ∧
          (∀ name, r.constant? name = g.constantTable name) ∧
          n.operators[earlier.length]? = some o ∧ o.name = m.name ∧
          OpType.ofName? m.opType = some o.opType ∧
          (o.opType.rule m g.constantTable).result = .ok o.attrs := by
  constructor
  · intro name c
    rw [constantTable_eq_some_iff h, Onnx.Graph.mem_constants, and_comm]
  · intro earlier m later hm
    obtain ⟨p, r, o, hupTo, ho, htable, hmade, hat⟩ := exists_moment h hm
    exact ⟨p, r, o, hupTo, ho, congrFun htable, hat, hmade.name, hmade.opType, hmade.attrs⟩

end Network

def reluOperator : Onnx.Node where
  opType := "Relu"
  name := "relu"
  inputs := ["x"]
  outputs := ["y"]

/-- An operator that reads its bounds from constants. -/
def clipOperator : Onnx.Node where
  opType := "Clip"
  name := "clip"
  inputs := ["y", "lowest", "highest"]
  outputs := ["z"]

def highestConstant : Onnx.Node where
  opType := "Constant"
  outputs := ["highest"]
  attributes := [{ name := "value_float", type := 1, float := ⟨0x40c00000⟩ }]

/-- One of the bounds is declared behind the operator that reads it. -/
def clipGraph : Onnx.Graph where
  initializers := [{ name := "lowest", elementType := 6, int32Data := [-1] }]
  nodes := [reluOperator, clipOperator, highestConstant]
  inputs := ["x"]
  outputs := ["z"]

theorem attributes_clipGraph : ∃ n o, (Network.build clipGraph).result = .ok n ∧
    n.operators[1]? = some o ∧ o.attrs = .clip ⟨0xbf800000⟩ ⟨0x40c00000⟩ := by
  obtain ⟨n, hn⟩ := Network.exists_build (g := clipGraph) (by decide) (by decide +kernel)
  obtain ⟨p, r, o, -, -, -, hat, -, htype, hattrs⟩ := (Network.build_attributes hn).2
    [reluOperator] clipOperator [] (by decide)
  refine ⟨n, o, hn, hat, ?_⟩
  have hclip : OpType.clip = o.opType := Option.some.inj htype
  have hrule : (OpType.clip.rule clipOperator clipGraph.constantTable).result
      = .ok (.clip ⟨0xbf800000⟩ ⟨0x40c00000⟩) := by
    decide +kernel
  rw [← hclip] at hattrs
  exact Except.ok.inj (hattrs.symm.trans hrule)

end NetPack
