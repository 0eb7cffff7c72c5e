import NetPack.Proofs.Build.Checks
import NetPack.Proofs.Onnx.Constant

/-!
# The outcome of building

A graph whose nodes have positions is built into a network if and only if it is valid, and otherwise the failure
is the first of its violations (`Network.build_outcome`): the phases of building look for the violations of the
graph in their order (`Build.checks_graph`).
-/

namespace NetPack

/-! ## Growth -/

theorem Grown.size_eq {r r' : Registry} {l : List Node} (h : Grown r l r') :
    r'.nodes.size = r.nodes.size + l.length := by
  simpa using congrArg List.length h.nodes

namespace Build

variable {α : Type} {r : Registry} {names : List String}

/-! ## Constants -/

theorem checks_addConstant {c : Reported Constant} {name? : Option String} (hs : Stage r names)
    (hname : ∀ k, c.result = .ok k → name? = some k.name)
    (hroom : r.nodes.size + name?.toList.length ≤ Registry.capacity) :
    Checks (addConstant c) r (c.faults ++ name?.toList.flatMap (clash names)) := by
  refine checks_reported.bind fun k r' hk => ?_
  obtain ⟨hresult, rfl⟩ := runs_reported.mp hk
  obtain rfl := hname k hresult
  have hadd : Checks (add (.constant k)) r' (clash names k.name) := checks_add hs hroom
  simpa using hadd

/-- The induction is over the sources; `earlier` are those whose constants are registered. -/
theorem checks_constants {make : α → Reported Constant} {name? : α → Option String} {earlier l : List α}
    (hs : Stage r (names ++ earlier.filterMap name?))
    (hname : ∀ a c, (make a).result = .ok c → name? a = some c.name)
    (hroom : r.nodes.size + (l.filterMap name?).length ≤ Registry.capacity) :
    Checks (l.forM fun a => do let _ ← addConstant (make a)) r
      (inTurn (fun before a => (make a).faults
        ++ (name? a).toList.flatMap (clash (names ++ before.filterMap name?))) earlier l) := by
  induction l generalizing r earlier with
  | nil => exact checks_pure ()
  | cons a l ih =>
    rw [← List.singleton_append, List.filterMap_append, List.length_append] at hroom
    have hlength : ([a].filterMap name?).length = (name? a).toList.length := by
      cases h : name? a <;> simp [h]
    have hhead := checks_addConstant hs (hname a) (by omega)
    refine (hhead.map fun _ => ()).bind fun u r' hu => ?_
    obtain ⟨id, r₁, hadd, hpure⟩ := runs_bind.mp hu
    obtain ⟨-, rfl⟩ := runs_pure.mp hpure
    obtain ⟨c, hc, hadd⟩ := runs_addConstant.mp hadd
    have hg := Grown.of_add hs.sound hadd
    have hat := hname a c hc
    refine ih ?_ ?_
    · simpa [hat, Node.name] using hs.grown hg
    · rw [hg.size_eq]
      simp [hat] at hroom ⊢
      omega

theorem checks_constantViolations {make : α → Reported Constant} {name? : α → Option String} {l : List α}
    (hs : Stage r names) (hname : ∀ a c, (make a).result = .ok c → name? a = some c.name)
    (hroom : r.nodes.size + (l.filterMap name?).length ≤ Registry.capacity) :
    Checks (l.forM fun a => do let _ ← addConstant (make a)) r (constantViolations make name? names l) :=
  checks_constants (by rwa [List.filterMap_nil, List.append_nil]) hname hroom

theorem names_of_made {make : α → Reported Constant} {name? : α → Option String} {l : List α}
    {cs : List Constant} (hname : ∀ a c, (make a).result = .ok c → name? a = some c.name)
    (h : List.Forall₂ (fun a c => (make a).result = .ok c) l cs) :
    (cs.map Node.constant).map Node.name = l.filterMap name? := by
  induction h with
  | nil => rfl
  | cons hc _ ih =>
    rw [List.map_cons, List.map_cons, ih, List.filterMap_cons_some (hname _ _ hc)]
    rfl

theorem filterMap_made {make : α → Reported Constant} {l : List α} {cs : List Constant}
    (h : List.Forall₂ (fun a c => (make a).result = .ok c) l cs) :
    (l.map make).filterMap (fun c => c.result.toOption) = cs := by
  induction h with
  | nil => rfl
  | cons hc _ ih =>
    rw [List.map_cons, List.filterMap_cons_some (by rw [hc]; rfl), ih]

/-! ## Operators -/

theorem checks_values (earlier : List String) {l : List String} (hs : Stage r (names ++ earlier))
    (hroom : r.nodes.size + l.length ≤ Registry.capacity) :
    Checks (l.mapM fun o => add (.value o)) r
      (inTurn (fun before o => clash (names ++ before) o) earlier l) := by
  induction l generalizing r earlier with
  | nil => exact checks_pure []
  | cons o l ih =>
    rw [List.length_cons] at hroom
    refine checks_mapM_cons (f := fun o => add (.value o)) (checks_add (n := .value o) hs (by omega))
      fun id r' hid => ?_
    have hg := Grown.of_add hs.sound hid
    refine ih (earlier ++ [o]) ?_ (by rw [hg.size_eq, List.length_singleton]; omega)
    simpa [Node.name] using hs.grown hg

theorem checks_operator {n : Onnx.Node} {outputs : List NodeId} (hs : Stage r names) :
    Checks (operator n outputs) r
      ((n.inputs.filter fun i => !names.contains i).map (.unknownInput n.name)
        ++ n.ruleViolations r.constant?) := by
  refine (checks_positions (.unknownInput n.name) hs).bind fun inputs r' hinputs => ?_
  obtain ⟨rfl, -⟩ := positions_run hs.sound hinputs
  rw [Onnx.Node.ruleViolations]
  cases h : OpType.ofName? n.opType with
  | none => exact congrArg Logged.result (bind_of_fails rfl)
  | some t =>
    have hfaults : (Build.attrs n t r'.constant?).faults = (t.rule n r'.constant?).faults := by
      rw [Logged.faults, result_attrs, Logged.faults]
    have htype : Checks (traced (.ofOption (.unsupportedOperator n.name n.opType) (some t))) r' [] :=
      checks_traced
    refine htype.after fun t' r₁ ht => ?_
    obtain ⟨ht, rfl⟩ := runs_traced.mp ht
    cases ht
    have hget : Checks get r₁ [] := ⟨r₁, r₁, runs_get.mpr ⟨rfl, rfl⟩⟩
    refine hget.after fun s r₂ hstate => ?_
    obtain ⟨rfl, rfl⟩ := runs_get.mp hstate
    have hattrs : Checks (reported (Build.attrs n t r₂.constant?)) r₂ (t.rule n r₂.constant?).faults :=
      hfaults ▸ checks_reported
    exact hattrs.followed fun a r₃ => (checks_traced (x := .tell _)).map _

theorem filterMap_constant?_values (l : List String) :
    (l.map Node.value).filterMap Node.constant? = [] := by
  rw [List.filterMap_map]
  exact List.filterMap_eq_nil_iff.mpr fun _ _ => rfl

theorem filterMap_constant?_operatorNodes (n : Onnx.Node) (o : Operator) :
    (operatorNodes n o).filterMap Node.constant? = [] := by
  rw [operatorNodes, List.filterMap_append, filterMap_constant?_values]
  rfl

theorem name_operatorNodes {before : List Node} {n : Onnx.Node} {o : Operator}
    (h : Converted before n o) : (operatorNodes n o).map Node.name = n.declared := by
  rw [operatorNodes, List.map_append, List.map_map, Onnx.Node.declared, ← h.name]
  exact congrArg (· ++ [o.name]) (List.map_id _)

theorem checks_addOperator {n : Onnx.Node} {cs : List Constant} (hs : Stage r names)
    (hconstants : r.nodes.toList.filterMap Node.constant? = cs)
    (hroom : r.nodes.size + n.declared.length ≤ Registry.capacity) :
    Checks (addOperator n) r (n.violations (.ofList cs) names) := by
  rw [Onnx.Node.declared, List.length_append, List.length_singleton] at hroom
  refine (checks_values [] (by simpa using hs) (by omega)).bind fun outputs r₁ hvalues => ?_
  obtain ⟨hg, -⟩ := values_run hs.sound hvalues
  have hs₁ : Stage r₁ (names ++ n.outputs) := by
    have hgrown := hs.grown hg
    rwa [List.map_map, show Node.name ∘ Node.value = id from rfl, List.map_id] at hgrown
  have htable : r₁.constant? = .ofList cs := by
    rw [hs₁.sound.constant?_eq, hg.nodes, List.filterMap_append, filterMap_constant?_values,
      List.append_nil, hconstants]
  rw [← htable]
  refine (checks_operator hs₁).bind fun o r₂ ho => ?_
  obtain ⟨rfl, hname, -⟩ := operator_run hs₁.sound ho
  have hsize := hg.size_eq
  rw [List.length_map] at hsize
  have hadd : Checks (add (.operator o)) r₂ (clash (names ++ n.outputs) o.name) :=
    checks_add hs₁ (by omega)
  exact hname ▸ hadd.map _

/-- The induction is over the operators; `earlier` are those that are registered. -/
theorem checks_operators {cs : List Constant} {earlier l : List Onnx.Node}
    (hs : Stage r (names ++ earlier.flatMap Onnx.Node.declared))
    (hconstants : r.nodes.toList.filterMap Node.constant? = cs)
    (hroom : r.nodes.size + (l.flatMap Onnx.Node.declared).length ≤ Registry.capacity) :
    Checks (l.forM addOperator) r (inTurn (fun before n =>
      n.violations (.ofList cs) (names ++ before.flatMap Onnx.Node.declared)) earlier l) := by
  induction l generalizing r earlier with
  | nil => exact checks_pure ()
  | cons n l ih =>
    rw [List.flatMap_cons, List.length_append] at hroom
    refine (checks_addOperator hs hconstants (by omega)).bind fun u r₁ hn => ?_
    obtain ⟨o, hconverted, hg⟩ := addOperator_run hs.sound hn
    have hlength := congrArg List.length (name_operatorNodes hconverted)
    rw [List.length_map] at hlength
    refine ih ?_ ?_ (by rw [hg.size_eq]; omega)
    · have hgrown := hs.grown hg
      rw [name_operatorNodes hconverted, List.append_assoc] at hgrown
      simpa using hgrown
    · rw [hg.nodes, List.filterMap_append, filterMap_constant?_operatorNodes, List.append_nil,
        hconstants]

/-! ## Graph inputs -/

theorem checks_inputs {l : List String} (hs : Stage r names)
    (hroom : r.nodes.size + (newNames r.nodes.toList l).length ≤ Registry.capacity) :
    Checks (l.mapM addInput) r [] := by
  induction l generalizing r names with
  | nil => exact checks_pure []
  | cons name l ih =>
    refine checks_mapM_cons (checks_addInput hs ?_) fun id r' hid => ?_
    · by_cases hmem : name ∈ names
      · exact .inr hmem
      · rw [newNames_cons_of_not_mem l (by rwa [hs.mem_iff]), List.length_cons] at hroom
        exact .inl (by omega)
    · rcases runs_addInput.mp hid with ⟨hfind, rfl⟩ | ⟨hnone, ha⟩
      · rw [newNames_cons_of_mem l (hs.sound.mem_of_find? hfind)] at hroom
        exact ih hs hroom
      · have hg := Grown.of_add hs.sound ha
        rw [newNames_cons_of_not_mem l ((hs.sound.find?_eq_none_iff name).mp hnone), ← hg.nodes,
          List.length_cons] at hroom
        exact ih (hs.grown hg) (by rw [hg.size_eq, List.length_singleton]; omega)

/-! ## Graphs -/

theorem head?_of_toConstant (n : Onnx.Node) (c : Constant) (h : n.toConstant.result = .ok c) :
    n.outputs.head? = some c.name :=
  (Onnx.Node.toConstant_ok h).1

theorem name_of_toConstant (t : Onnx.Tensor) (c : Constant) (h : t.toConstant.result = .ok c) :
    some t.name = some c.name :=
  congrArg some (Onnx.Tensor.toConstant_ok h).1.symm

theorem mem_newNames {ns : List Node} {l : List String} {name : String} :
    name ∈ newNames ns l ↔ name ∈ l ∧ name ∉ ns.map Node.name := by
  rw [newNames, List.mem_eraseDups, List.mem_filter]
  simp

theorem length_names (g : Onnx.Graph) : g.names.length = g.initializers.length
    + (g.constantNodes.filterMap fun n => n.outputs.head?).length
    + (g.inputs.filter fun i => !g.constantNames.contains i).eraseDups.length
    + (g.operators.flatMap Onnx.Node.declared).length := by
  simp [Onnx.Graph.names, Onnx.Graph.constantNames, Nat.add_assoc]

/-- A registry after a phase: its names, its constants and the number of its nodes. -/
structure Reached (r : Registry) (names : List String) (cs : List Constant) (size : Nat) : Prop
    extends Stage r names where
  constants : r.nodes.toList.filterMap Node.constant? = cs
  size_eq : r.nodes.size = size

theorem Reached.empty : Reached .empty [] [] 0 :=
  ⟨.empty, rfl, rfl⟩

theorem Reached.grown {r' : Registry} {names' : List String} {cs cs' : List Constant} {size : Nat}
    {l : List Node} (h : Reached r names cs size) (hg : Grown r l r')
    (hnames : l.map Node.name = names') (hconstants : l.filterMap Node.constant? = cs') :
    Reached r' (names ++ names') (cs ++ cs') (size + names'.length) := by
  refine ⟨hnames ▸ h.toStage.grown hg, ?_, ?_⟩
  · rw [hg.nodes, List.filterMap_append, h.constants, hconstants]
  · rw [hg.size_eq, h.size_eq, ← hnames, List.length_map]

theorem filterMap_constant?_constants (cs : List Constant) :
    (cs.map Node.constant).filterMap Node.constant? = cs := by
  rw [List.filterMap_map]
  exact List.filterMap_some

theorem Reached.made {make : α → Reported Constant} {name? : α → Option String} {l : List α}
    {r' : Registry} {cs : List Constant} {size : Nat} {u : Unit} (h : Reached r names cs size)
    (hname : ∀ a c, (make a).result = .ok c → name? a = some c.name)
    (hrun : Runs (l.forM fun a => do let _ ← addConstant (make a)) r u r') :
    Reached r' (names ++ l.filterMap name?)
      (cs ++ (l.map make).filterMap fun c => c.result.toOption)
      (size + (l.filterMap name?).length) := by
  obtain ⟨made, hmade, hg⟩ := constants_run h.sound hrun
  exact h.grown hg (names_of_made hname hmade)
    ((filterMap_constant?_constants made).trans (filterMap_made hmade).symm)

theorem Reached.inputs {r' : Registry} {cs : List Constant} {size : Nat} {l : List String}
    {ids : List NodeId} (h : Reached r names cs size) (hrun : Runs (l.mapM addInput) r ids r') :
    Reached r' (names ++ l) cs (size + (newNames r.nodes.toList l).length) := by
  obtain ⟨hg, -⟩ := inputs_run h.sound hrun
  have hvalues : ((newNames r.nodes.toList l).map Node.value).map Node.name
      = newNames r.nodes.toList l := by
    rw [List.map_map]
    exact List.map_id _
  have hgrown := h.grown hg hvalues (filterMap_constant?_values _)
  rw [List.append_nil] at hgrown
  refine ⟨hgrown.toStage.congr fun name => ?_, hgrown.constants, hgrown.size_eq⟩
  rw [List.mem_append, List.mem_append, mem_newNames, h.mem_iff]
  tauto

theorem Reached.newNames_eq {cs : List Constant} {size : Nat} (h : Reached r names cs size)
    (l : List String) :
    newNames r.nodes.toList l = (l.filter fun i => !names.contains i).eraseDups := by
  unfold newNames
  congr 1
  refine List.filter_congr fun i _ => ?_
  rw [Bool.not_inj_iff, Bool.eq_iff_iff, List.contains_iff_mem, List.contains_iff_mem]
  exact h.mem_iff i

theorem Appended.map_name {before after : List Node} {l : List Onnx.Node} (h : Appended before l after) :
    after.map Node.name = before.map Node.name ++ l.flatMap Onnx.Node.declared := by
  induction h with
  | nil => exact (List.append_nil _).symm
  | cons head _ ih => rw [ih, List.map_append, name_operatorNodes head, List.append_assoc,
      List.flatMap_cons]

theorem Stage.operators {r' : Registry} {l : List Onnx.Node} {u : Unit} (h : Stage r names)
    (hrun : Runs (l.forM addOperator) r u r') : Stage r' (names ++ l.flatMap Onnx.Node.declared) := by
  obtain ⟨hsound, happended⟩ := operators_run h.sound hrun
  refine ⟨hsound, fun name => ?_⟩
  rw [happended.map_name, List.mem_append, List.mem_append, h.mem_iff]

/-- The phases look for the violations of a graph. The registry after each phase is known from what the
phase puts into it, and has room for the nodes of the next one. -/
theorem checks_graph {g : Onnx.Graph} (hroom : g.names.length ≤ Registry.capacity) :
    Checks (graph g) .empty g.violations := by
  have hlength := length_names g
  have hinitNames : g.initializers.filterMap (fun t => some t.name) = g.initializers.map (·.name) :=
    congrFun List.filterMap_eq_map' _
  have hinitLength : (g.initializers.filterMap fun t => some t.name).length = g.initializers.length := by
    rw [hinitNames, List.length_map]
  have h₀ := Reached.empty
  have hroom₀ : Registry.empty.nodes.size + (g.initializers.filterMap fun t => some t.name).length
      ≤ Registry.capacity := by
    rw [h₀.size_eq, hinitLength]
    omega
  refine (checks_constantViolations h₀.toStage name_of_toConstant hroom₀).bind fun u₁ r₁ hinits => ?_
  have h₁ := h₀.made name_of_toConstant hinits
  rw [hinitLength, hinitNames, List.nil_append, List.nil_append, Nat.zero_add] at h₁
  have hroom₁ : r₁.nodes.size + (g.constantNodes.filterMap fun n => n.outputs.head?).length
      ≤ Registry.capacity := by
    rw [h₁.size_eq]
    omega
  refine (checks_constantViolations h₁.toStage head?_of_toConstant hroom₁).bind fun u₂ r₂ hconsts => ?_
  have h₂ : Reached r₂ g.constantNames g.constants
      (g.initializers.length + (g.constantNodes.filterMap fun n => n.outputs.head?).length) := by
    have hmade := h₁.made head?_of_toConstant hconsts
    rwa [← List.filterMap_append] at hmade
  have hnew := congrArg List.length (h₂.newNames_eq g.inputs)
  have hroom₂ : r₂.nodes.size + (newNames r₂.nodes.toList g.inputs).length ≤ Registry.capacity := by
    rw [h₂.size_eq, hnew]
    omega
  refine (checks_inputs h₂.toStage hroom₂).after fun ids r₃ hinputs => ?_
  have h₃ := h₂.inputs hinputs
  have hroom₃ : r₃.nodes.size + (g.operators.flatMap Onnx.Node.declared).length ≤ Registry.capacity := by
    rw [h₃.size_eq, hnew]
    omega
  have hs₃ : Stage r₃ (g.constantNames ++ g.inputs ++ [].flatMap Onnx.Node.declared) := by
    rw [List.flatMap_nil, List.append_nil]
    exact h₃.toStage
  refine (checks_operators hs₃ h₃.constants hroom₃).bind fun u₄ r₄ hoperators => ?_
  exact (checks_positions .unknownGraphOutput (h₃.toStage.operators hoperators)).map _

end Build

/-! ## Networks -/

theorem Network.exists_build {g : Onnx.Graph} (hroom : g.names.length ≤ Registry.capacity)
    (h : g.violations = []) : ∃ n, (Network.build g).result = .ok n := by
  have hchecks := Build.checks_graph hroom
  rw [h] at hchecks
  obtain ⟨⟨inputs, outputs⟩, r, hruns⟩ := hchecks
  rw [build_of_runs hruns]
  exact ⟨_, rfl⟩

/-- A graph without faults is built into the one network that has its nodes and names. -/
theorem Network.build_of_built {g : Onnx.Graph} {n : Network} {inits consts : List Constant}
    (hroom : g.names.length ≤ Registry.capacity) (hvalid : g.violations = [])
    (h : Build.Built g n inits consts) : (Network.build g).result = .ok n := by
  obtain ⟨n', hn⟩ := Network.exists_build hroom hvalid
  obtain ⟨inits', consts', hbuilt⟩ := Network.built hn
  rw [hn, h.unique hbuilt]

theorem Network.build_of_violations {g : Onnx.Graph} {e : Failure} {es : List Failure}
    (hroom : g.names.length ≤ Registry.capacity) (h : g.violations = e :: es) :
    (Network.build g).result = .error e := by
  have hchecks := Build.checks_graph hroom
  rw [h] at hchecks
  rw [build_of_fails hchecks]

/-- A graph is built exactly if it is valid, and else the build fails with the first of its violations in source order.
Positions must be able to tell the nodes apart. -/
theorem Network.build_outcome {g : Onnx.Graph} (h : g.names.length ≤ Registry.capacity) :
    ((∃ n, (Network.build g).result = .ok n) ↔ g.Valid) ∧
      ∀ e, (Network.build g).result = .error e ↔ g.violations.head? = some e := by
  rw [Onnx.Graph.valid_iff]
  cases hg : g.violations with
  | nil =>
    obtain ⟨n, hn⟩ := Network.exists_build h hg
    rw [hn]
    exact ⟨iff_of_true ⟨n, rfl⟩ rfl, fun e => iff_of_false (fun he => nomatch he) (fun he => nomatch he)⟩
  | cons e es =>
    rw [Network.build_of_violations h hg]
    refine ⟨iff_of_false (fun ⟨_, hn⟩ => nomatch hn) (List.cons_ne_nil _ _), fun e' => ?_⟩
    rw [List.head?_cons, Option.some.injEq, Except.error.injEq]

/-- The first operator reads what the second one computes, and both compute `z`. -/
def crossedGraph : Onnx.Graph where
  nodes := [
    { opType := "Relu", name := "late", inputs := ["y"], outputs := ["z"] },
    { opType := "Relu", name := "early", inputs := ["x"], outputs := ["y", "z"] }]
  inputs := ["x"]
  outputs := ["z"]

theorem crossedGraph_refused : crossedGraph.names.length ≤ Registry.capacity ∧
    crossedGraph.violations = [.unknownInput "late" "y", .duplicateNodeName "z"] ∧
    (Network.build crossedGraph).result = .error (.unknownInput "late" "y") := by
  have hroom : crossedGraph.names.length ≤ Registry.capacity := by decide
  have hviolations : crossedGraph.violations
      = [.unknownInput "late" "y", .duplicateNodeName "z"] := by decide
  exact ⟨hroom, hviolations, ((Network.build_outcome hroom).2 _).mpr (by rw [hviolations]; rfl)⟩

end NetPack
