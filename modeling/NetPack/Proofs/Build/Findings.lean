import NetPack.Proofs.Build.Outcome
import NetPack.Proofs.Rule.Reached

/-!
# The findings of building

What is found while a graph is built into a network can be read off the graph (`Onnx.Graph.findings`): the
64-bit integers of its constants that are moved, and for each other operator those of its value and then the
attributes that its rule does not ask for, all in source order (`Network.build_findings`).
-/

namespace NetPack

namespace Onnx

/-! ## The findings of a graph -/

/-- The names of the attributes that a rule does not ask for, in source order. -/
def Node.passedOver (n : Node) (t : OpType) : List String :=
  (n.attributes.map (·.name)).filter fun name => !(n.handled t).contains name

/-- The findings on an operator that is no constant. -/
def Node.findings (n : Node) : List Diagnostic :=
  match OpType.ofName? n.opType with
  | none => []
  | some t => n.valueClampings t ++ (n.passedOver t).map (.unhandledAttribute n.name n.opType)

/-- The findings on a graph. A constant is called after its tensor or the first output of its operator. -/
def Graph.findings (g : Graph) : List Diagnostic :=
  g.initializers.flatMap (fun t => clampings t.name t.integers)
    ++ (g.constantNodes.flatMap fun n => n.outputs.head?.toList.flatMap fun name => clampings name n.integers)
    ++ g.operators.flatMap Node.findings

end Onnx

/-! ## Notes -/

theorem diagnosticsOf_append (l l' : List Event) :
    diagnosticsOf (l ++ l') = diagnosticsOf l ++ diagnosticsOf l' :=
  List.filterMap_append

theorem diagnosticsOf_map (ds : List Diagnostic) : diagnosticsOf (ds.map .diagnostic) = ds := by
  unfold diagnosticsOf
  rw [List.filterMap_map]
  exact List.filterMap_some

namespace Build

variable {α β : Type} {r r' : Registry}

/-! ## Findings of steps -/

/-- What a step on a registry finds. -/
def found (x : Build α) (r : Registry) : List Diagnostic :=
  diagnosticsOf (x r).log

/-- A step that finds nothing on any registry. -/
def Quiet (x : Build α) : Prop :=
  ∀ r, found x r = []

theorem found_bind {x : Build α} {f : α → Build β} {a : α} (h : Runs x r a r') :
    found (x >>= f) r = found x r ++ found (f a) r' := by
  unfold found
  rw [bind_of_runs h, diagnosticsOf_append]

theorem Quiet.bind {x : Build α} {f : α → Build β} (hx : Quiet x) (hf : ∀ a, Quiet (f a)) :
    Quiet (x >>= f) := by
  intro r
  cases h : (x r).result with
  | error e =>
    unfold found
    rw [bind_of_fails h]
    exact hx r
  | ok p =>
    rw [found_bind (show Runs x r p.1 p.2 from h), hx r, hf p.1 p.2, List.nil_append]

theorem quiet_pure (a : α) : Quiet (pure a) :=
  fun _ => rfl

theorem quiet_mapM {f : α → Build β} (hf : ∀ a, Quiet (f a)) (l : List α) : Quiet (l.mapM f) := by
  induction l with
  | nil => exact quiet_pure []
  | cons a l ih =>
    rw [List.mapM_cons]
    exact (hf a).bind fun b => ih.bind fun bs => quiet_pure (b :: bs)

theorem quiet_add (n : Node) : Quiet (add n) :=
  fun _ => rfl

theorem quiet_position (missing : Failure) (name : String) : Quiet (position missing name) := by
  intro r
  unfold found position
  cases r.find? name with
  | none => rfl
  | some id => rfl

theorem quiet_addInput (name : String) : Quiet (addInput name) := by
  intro r
  unfold found addInput
  cases r.find? name with
  | none => exact quiet_add (.value name) r
  | some id => rfl

theorem found_traced (x : Traced α) (r : Registry) : found (traced x) r = diagnosticsOf x.log := by
  unfold found
  rw [show traced x r = x >>= fun a => pure (a, r) from rfl]
  cases h : x.result with
  | error e => rw [Logged.log_bind_of_error _ h]
  | ok a => rw [Logged.log_bind_of_ok _ h, Logged.log_pure, List.append_nil]

theorem found_reported (x : Reported α) (r : Registry) : found (reported x) r = x.log :=
  (found_traced _ r).trans (diagnosticsOf_map x.log)

/-- A step for each element of a list finds what it finds for the elements, in order. -/
theorem found_forM {f : α → Build Unit} {found' : α → List Diagnostic} {l : List α} {u : Unit}
    (hf : ∀ a r r', Runs (f a) r () r' → found (f a) r = found' a)
    (h : Runs (l.forM f) r u r') : found (l.forM f) r = l.flatMap found' := by
  induction l generalizing r with
  | nil => exact quiet_pure () r
  | cons a l ih =>
    obtain ⟨r₁, hhead, htail⟩ := runs_forM_cons.mp h
    rw [List.forM, found_bind hhead, hf a r r₁ hhead, ih htail, List.flatMap_cons]

/-! ## Constants -/

theorem found_addConstant {c : Reported Constant} {u : Unit}
    (h : Runs (do let _ ← addConstant c) r u r') :
    ∃ k, c.result = .ok k ∧ found (do let _ ← addConstant c) r = c.log := by
  obtain ⟨id, r₁, hadd, -⟩ := runs_bind.mp h
  obtain ⟨k, hk, -⟩ := runs_addConstant.mp hadd
  refine ⟨k, hk, ?_⟩
  have hreported : Runs (reported c) r k r := runs_reported.mpr ⟨hk, rfl⟩
  rw [found_bind hadd, quiet_pure, List.append_nil, addConstant, found_bind hreported, quiet_add,
    List.append_nil, found_reported]

theorem found_initializers {l : List Onnx.Tensor} {u : Unit}
    (h : Runs (l.forM fun t => do let _ ← addConstant t.toConstant) r u r') :
    found (l.forM fun t => do let _ ← addConstant t.toConstant) r
      = l.flatMap fun t => clampings t.name t.integers := by
  refine found_forM (fun t r r' ht => ?_) h
  obtain ⟨c, hc, hfound⟩ := found_addConstant ht
  rw [hfound, (Onnx.Tensor.toConstant_ok hc).2.1]

theorem found_constantNodes {l : List Onnx.Node} {u : Unit}
    (h : Runs (l.forM fun n => do let _ ← addConstant n.toConstant) r u r') :
    found (l.forM fun n => do let _ ← addConstant n.toConstant) r
      = l.flatMap fun n => n.outputs.head?.toList.flatMap fun name => clampings name n.integers := by
  refine found_forM (fun n r r' hn => ?_) h
  obtain ⟨c, hc, hfound⟩ := found_addConstant hn
  obtain ⟨hhead, hlog⟩ := Onnx.Node.toConstant_ok hc
  rw [hfound, hlog, hhead, Option.toList_some, List.flatMap_singleton]

/-! ## Operators -/

/-- The findings on the attributes of an operator do not depend on the constants. -/
theorem log_attrs {n : Onnx.Node} {t : OpType} {constants : ConstantTable} {a : Attrs}
    (h : (Build.attrs n t constants).result = .ok a) : (Build.attrs n t constants).log
      = n.valueClampings t ++ (n.passedOver t).map (.unhandledAttribute n.name n.opType) := by
  rw [result_attrs] at h
  have hlog := OpType.log_rule h
  have hunhandled : n.unhandled (t.rule n constants).log = n.passedOver t := by
    unfold Onnx.Node.unhandled Onnx.Node.passedOver
    rw [hlog, filterMap_name?_notes]
  rw [attrs_of_ok h, hunhandled, hlog, filterMap_diagnostic?_notes]

theorem quiet_opType (n : Onnx.Node) : Quiet (traced
    (.ofOption (.unsupportedOperator n.name n.opType) (OpType.ofName? n.opType))) := by
  intro r
  rw [found_traced]
  cases OpType.ofName? n.opType with
  | none => rfl
  | some t => rfl

theorem found_operator {n : Onnx.Node} {outputs : List NodeId} {o : Operator}
    (h : Runs (operator n outputs) r o r') : found (operator n outputs) r = n.findings ∧
      ∀ t, OpType.ofName? n.opType = some t → (n.valueClampings t).length ≤ 1 := by
  obtain ⟨inputs, r₁, hinputs, h₁⟩ := runs_bind.mp h
  obtain ⟨t, r₂, ht, h₂⟩ := runs_bind.mp h₁
  obtain ⟨s, r₃, hs, h₃⟩ := runs_bind.mp h₂
  obtain ⟨a, r₄, ha, h₄⟩ := runs_bind.mp h₃
  have hpositions : Quiet (n.inputs.mapM fun i => position (.unknownInput n.name i) i) :=
    quiet_mapM (fun i => quiet_position _ i) n.inputs
  have hget : Quiet get := fun _ => rfl
  have hlast : Quiet (do
      traced (.tell (.convertedOperator n.name t inputs outputs))
      pure ({ name := n.name, opType := t, attrs := a, inputs, outputs } : Operator)) :=
    Quiet.bind (fun r => found_traced _ r) fun _ => quiet_pure _
  obtain ⟨hattrs, -⟩ := runs_reported.mp ha
  obtain ⟨hname, -⟩ := runs_ofOption.mp ht
  constructor
  · unfold operator Onnx.Node.findings
    rw [found_bind hinputs, found_bind ht, found_bind hs, found_bind ha, hpositions, quiet_opType, hget,
      hlast, found_reported, log_attrs hattrs, hname]
    simp only [List.nil_append, List.append_nil]
  · intro t' ht'
    cases ht'.symm.trans hname
    rw [result_attrs] at hattrs
    exact OpType.length_valueClampings_le hattrs

theorem found_addOperator {n : Onnx.Node} {u : Unit} (h : Runs (addOperator n) r u r') :
    found (addOperator n) r = n.findings ∧
      ∀ t, OpType.ofName? n.opType = some t → (n.valueClampings t).length ≤ 1 := by
  obtain ⟨outputs, r₁, houtputs, h₁⟩ := runs_bind.mp h
  obtain ⟨o, r₂, ho, h₂⟩ := runs_bind.mp h₁
  have hvalues : Quiet (n.outputs.mapM fun o => add (.value o)) :=
    quiet_mapM (fun o => quiet_add (.value o)) n.outputs
  have hlast : Quiet (do let _ ← add (.operator o)) :=
    (quiet_add (.operator o)).bind fun _ => quiet_pure ()
  obtain ⟨hfound, hlength⟩ := found_operator ho
  refine ⟨?_, hlength⟩
  unfold addOperator
  rw [found_bind houtputs, hvalues, found_bind ho, hlast, hfound, List.nil_append, List.append_nil]

/-! ## Graphs -/

theorem found_graph {g : Onnx.Graph} {p : List NodeId × List NodeId} (h : Runs (graph g) r p r') :
    found (graph g) r = g.findings ∧
      ∀ n ∈ g.operators, ∀ t, OpType.ofName? n.opType = some t → (n.valueClampings t).length ≤ 1 := by
  obtain ⟨u₁, r₁, hinits, h₁⟩ := runs_bind.mp h
  obtain ⟨u₂, r₂, hconsts, h₂⟩ := runs_bind.mp h₁
  obtain ⟨ids, r₃, hinputs, h₃⟩ := runs_bind.mp h₂
  obtain ⟨u₄, r₄, hoperators, h₄⟩ := runs_bind.mp h₃
  have hquiet : Quiet (g.inputs.mapM addInput) := quiet_mapM quiet_addInput g.inputs
  have hlast : Quiet (do
      let outputs ← g.outputs.mapM fun o => position (.unknownGraphOutput o) o
      pure (ids, outputs)) :=
    (quiet_mapM (fun o => quiet_position _ o) g.outputs).bind fun _ => quiet_pure _
  constructor
  · unfold graph Onnx.Graph.findings
    rw [found_bind hinits, found_bind hconsts, found_bind hinputs, found_bind hoperators, hquiet, hlast,
      found_initializers hinits, found_constantNodes hconsts,
      found_forM (fun n r r' hn => (found_addOperator hn).1) hoperators, List.nil_append,
      List.append_nil, ← List.append_assoc]
    rfl
  · intro n hn
    obtain ⟨r₁, r₂, hn⟩ := exists_runs_of_mem hn hoperators
    exact (found_addOperator hn).2

end Build

/-! ## Networks -/

theorem Network.diagnosticsOf_build_of_runs {g : Onnx.Graph} {inputs outputs : List NodeId} {r : Registry}
    (h : Build.Runs (Build.graph g) .empty (inputs, outputs) r) :
    diagnosticsOf (build g).log = Build.found (Build.graph g) .empty := by
  rw [build_of_runs h, diagnosticsOf_append]
  exact List.append_nil _

/-- A build that succeeds reports the findings of its graph, in their order and nothing else. Among them an operator has
one clamped value at most. -/
theorem Network.build_findings {g : Onnx.Graph} {n : Network} (h : (Network.build g).result = .ok n) :
    diagnosticsOf (Network.build g).log = g.findings ∧
      ∀ m ∈ g.operators, ∀ t, OpType.ofName? m.opType = some t → (m.valueClampings t).length ≤ 1 := by
  obtain ⟨r, hruns, -⟩ := Network.result_build_eq_ok_iff.mp h
  obtain ⟨hfound, hlength⟩ := Build.found_graph hruns
  refine ⟨?_, hlength⟩
  -- The event that the network is built is no finding.
  rw [build_of_runs hruns, diagnosticsOf_append, ← hfound]
  exact List.append_nil _

/-- A tensor with an element that is out of range. -/
def largeTensor : Onnx.Tensor where
  name := "v"
  dims := [1]
  elementType := 7
  int64Data := [4294967296]

/-- An operator whose padding mode makes its attribute `pads` useless. -/
def poolOperator : Onnx.Node where
  opType := "AveragePool"
  name := "pool"
  inputs := ["x"]
  outputs := ["y"]
  attributes := [
    { name := "kernel_shape", type := 7, ints := [2, 2] },
    { name := "pads", type := 7, ints := [1, 1, 1, 1] },
    { name := "auto_pad", type := 3, string := [83, 65, 77, 69, 95, 85, 80, 80, 69, 82] }]

/-- A graph with integers out of range in each place that can have them. -/
def noisyGraph : Onnx.Graph where
  initializers := [
    { name := "w", dims := [3], elementType := 7, int64Data := [-2147483648, 5, 2147483648] }]
  nodes := [
    { opType := "ConstantOfShape", name := "fill", inputs := ["k"], outputs := ["f"], attributes := [
      { name := "note", type := 2 }, { name := "value", type := 4, tensor := some largeTensor }] },
    { opType := "Constant", outputs := ["k"], attributes := [
      { name := "value_int", type := 2, int := -4294967296 }] },
    poolOperator]
  inputs := ["x"]
  outputs := ["y"]

theorem findings_noisyGraph : ∃ n, (Network.build noisyGraph).result = .ok n ∧
    diagnosticsOf (Network.build noisyGraph).log = [.valueClamped "w" (-2147483648) (-2147483647),
      .valueClamped "w" 2147483648 2147483647, .valueClamped "k" (-4294967296) (-2147483647),
      .valueClamped "v" 4294967296 2147483647, .unhandledAttribute "fill" "ConstantOfShape" "note",
      .unhandledAttribute "pool" "AveragePool" "pads"] := by
  have hroom : noisyGraph.names.length ≤ Registry.capacity := by decide
  have hvalid : noisyGraph.violations = [] := by decide +kernel
  obtain ⟨n, hn⟩ := Network.exists_build hroom hvalid
  refine ⟨n, hn, (Network.build_findings hn).1.trans ?_⟩
  decide +kernel

end NetPack
