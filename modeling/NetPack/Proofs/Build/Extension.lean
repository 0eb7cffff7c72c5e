import NetPack.Proofs.Build.Attributes
import NetPack.Proofs.Build.Findings

/-!
# Further operators

Operators behind those of a graph are converted when all of the graph is built but its outputs, so they cannot
disturb it. The nodes and the findings of the graph stay in front, its inputs stay where they are, and a failure
before the outputs is the failure of the longer graph too. The outputs of a graph are looked up last, but no name gets
another position by what is registered behind it (`Network.build_extended`).
-/

namespace NetPack

namespace Onnx

/-- The graph with further operators behind its own. -/
def Graph.extended (g : Graph) (more : List Node) : Graph :=
  { g with nodes := g.nodes ++ more }

def Graph.withoutOutputs (g : Graph) : Graph :=
  { g with outputs := [] }

section Extended

variable {g : Graph} {more : List Node}

theorem Graph.extended_nil (g : Graph) : g.extended [] = g := by
  unfold extended
  rw [List.append_nil]

theorem Graph.constantNodes_extended (h : ∀ m ∈ more, m.isConstant = false) :
    (g.extended more).constantNodes = g.constantNodes := by
  have hnone : more.filter (fun m => m.isConstant) = [] :=
    List.filter_eq_nil_iff.mpr fun m hm => by rw [h m hm]; decide
  unfold constantNodes extended
  rw [List.filter_append, hnone, List.append_nil]

theorem Graph.operators_extended (h : ∀ m ∈ more, m.isConstant = false) :
    (g.extended more).operators = g.operators ++ more := by
  have hall : more.filter (fun m => !m.isConstant) = more :=
    List.filter_eq_self.mpr fun m hm => by rw [h m hm]; rfl
  unfold operators extended
  rw [List.filter_append, hall]

end Extended

end Onnx

namespace Build

variable {g : Onnx.Graph} {more : List Onnx.Node} {inputs : List NodeId} {r r' : Registry}

/-- The steps of building that come before the outputs of the graph. They give the positions of its inputs. -/
def stem (g : Onnx.Graph) : Build (List NodeId) := do
  let inputs ← opening g
  g.operators.forM addOperator
  pure inputs

theorem graph_extended (h : ∀ m ∈ more, m.isConstant = false) :
    graph (g.extended more) = stem g >>= closing g more := by
  have hopening : opening (g.extended more) = opening g := by
    unfold opening
    rw [Onnx.Graph.constantNodes_extended h]
    rfl
  rw [graph_eq_opening, hopening, Onnx.Graph.operators_extended h]
  unfold stem closing
  simp only [List.forM_eq_forM, List.forM_append, bind_assoc, pure_bind]
  rfl

theorem graph_eq_stem (g : Onnx.Graph) : graph g = stem g >>= closing g [] := by
  have hextended : graph (g.extended []) = stem g >>= closing g [] :=
    graph_extended fun _ hm => absurd hm List.not_mem_nil
  rwa [g.extended_nil] at hextended

theorem graph_withoutOutputs (g : Onnx.Graph) :
    graph g.withoutOutputs = stem g >>= fun inputs => pure (inputs, []) :=
  graph_eq_stem g.withoutOutputs

theorem runs_withoutOutputs (h : Runs (stem g) .empty inputs r) :
    Runs (graph g.withoutOutputs) .empty (inputs, []) r := by
  rw [graph_withoutOutputs]
  exact runs_bind.mpr ⟨inputs, r, h, runs_pure.mpr ⟨rfl, rfl⟩⟩

theorem found_withoutOutputs (h : Runs (stem g) .empty inputs r) :
    found (graph g.withoutOutputs) .empty = found (stem g) .empty := by
  have hquiet : Quiet (pure (inputs, ([] : List NodeId))) := quiet_pure _
  rw [graph_withoutOutputs, found_bind h, hquiet, List.append_nil]

theorem sound_of_stem (h : Runs (stem g) .empty inputs r) : r.Sound := by
  obtain ⟨ids, r₁, hopening, h₁⟩ := runs_bind.mp h
  obtain ⟨u, r₂, hoperators, h₂⟩ := runs_bind.mp h₁
  obtain ⟨-, rfl⟩ := runs_pure.mp h₂
  exact (operators_run (holding_opening hopening).sound hoperators).1

/-- Behind the stem nodes are only put behind the others, and the outputs have the names of the graph. -/
theorem closing_run {p : List NodeId × List NodeId} (hs : r.Sound) (h : Runs (closing g more inputs) r p r') :
    p.1 = inputs ∧ r'.Sound ∧ Appended r.nodes.toList more r'.nodes.toList ∧
      Names r'.nodes.toList p.2 g.outputs := by
  obtain ⟨u, r₁, hoperators, h₁⟩ := runs_bind.mp h
  obtain ⟨ids, r₂, houtputs, h₂⟩ := runs_bind.mp h₁
  obtain ⟨rfl, rfl⟩ := runs_pure.mp h₂
  obtain ⟨hsound, happended⟩ := operators_run hs hoperators
  obtain ⟨rfl, hnames⟩ := positions_run hsound houtputs
  exact ⟨rfl, hsound, happended, hnames⟩

end Build

open Build

namespace Network

variable {g : Onnx.Graph} {more : List Onnx.Node} {n : Network}

/-- A network comes from a registry on which only the outputs of the graph are left to be looked up. -/
theorem exists_stem (h : ∀ m ∈ more, m.isConstant = false)
    (hn : (build (g.extended more)).result = .ok n) : ∃ r, Runs (stem g) .empty n.inputs r ∧
      Appended r.nodes.toList more n.nodes ∧ (n.nodes.map Node.name).Nodup ∧ Names n.nodes n.outputs g.outputs ∧
      found (stem g) .empty <+: diagnosticsOf (build (g.extended more)).log := by
  obtain ⟨r', hruns, hnodes⟩ := result_build_eq_ok_iff.mp hn
  have hfound := diagnosticsOf_build_of_runs hruns
  rw [graph_extended h] at hruns hfound
  obtain ⟨inputs, r, hstem, hclosing⟩ := runs_bind.mp hruns
  obtain ⟨rfl, hsound, happended, hnames⟩ := closing_run (sound_of_stem hstem) hclosing
  rw [← hnodes]
  refine ⟨r, hstem, happended, hsound.nodup, hnames, ?_⟩
  rw [hfound, found_bind hstem]
  exact List.prefix_append _ _

/-- A graph without outputs can fail in the stem only, which the longer graph goes through as well. -/
theorem build_extended_of_error (h : ∀ m ∈ more, m.isConstant = false) {e : Failure}
    (he : (build g.withoutOutputs).result = .error e) : (build (g.extended more)).result = .error e := by
  cases hstem : (stem g .empty).result with
  | ok p =>
    rw [build_of_runs (runs_withoutOutputs hstem)] at he
    cases he
  | error e' =>
    have hfails : (graph g.withoutOutputs .empty).result = .error e' := by
      rw [graph_withoutOutputs, bind_of_fails hstem]
    have hfails' : (graph (g.extended more) .empty).result = .error e' := by
      rw [graph_extended h, bind_of_fails hstem]
    rw [build_of_fails hfails] at he
    rw [build_of_fails hfails']
    exact he

/-- The outputs have the same names among the nodes of the longer network, where no two nodes share one. -/
theorem outputs_extended {n' : Network} (h : ∀ m ∈ more, m.isConstant = false) (hn : (build g).result = .ok n)
    (hn' : (build (g.extended more)).result = .ok n') : n.outputs = n'.outputs := by
  have hnone : ∀ m ∈ ([] : List Onnx.Node), m.isConstant = false := fun _ hm => absurd hm List.not_mem_nil
  rw [← g.extended_nil] at hn
  obtain ⟨r, hstem, hnil, -, hnames, -⟩ := exists_stem hnone hn
  obtain ⟨r', hstem', happended, hnodup, hnames', -⟩ := exists_stem h hn'
  obtain rfl : r' = r := (Prod.mk.inj (Except.ok.inj (hstem'.symm.trans hstem))).2
  have hnodes : n.nodes = r'.nodes.toList := hnil.eq_of_nil
  obtain ⟨later, hlater⟩ := happended.exists_append
  rw [hnodes] at hnames
  exact (hlater ▸ hnames.append later).unique hnodup hnames'

/-- The first part compares with the graph without outputs, since an output may only be found behind the further
operators. -/
theorem build_extended (hmore : ∀ m ∈ more, m.isConstant = false) :
    (∀ n, (build (g.extended more)).result = .ok n → ∃ n₀, (build g.withoutOutputs).result = .ok n₀ ∧
      n₀.nodes <+: n.nodes ∧ n₀.inputs = n.inputs ∧
      diagnosticsOf (build g.withoutOutputs).log <+: diagnosticsOf (build (g.extended more)).log) ∧
    (∀ e, (build g.withoutOutputs).result = .error e → (build (g.extended more)).result = .error e) ∧
    (∀ n n', (build g).result = .ok n → (build (g.extended more)).result = .ok n' → n.outputs = n'.outputs) := by
  refine ⟨?_, fun e => build_extended_of_error hmore, fun n n' => outputs_extended hmore⟩
  intro n hn
  obtain ⟨r, hstem, happended, -, -, hfound⟩ := exists_stem hmore hn
  have hruns := runs_withoutOutputs hstem
  refine ⟨⟨r.nodes.toList, n.inputs, []⟩, ?_, happended.exists_append, rfl, ?_⟩
  · rw [build_of_runs hruns]
  · rw [diagnosticsOf_build_of_runs hruns, found_withoutOutputs hstem]
    exact hfound

end Network

/-- An operator that reads what `noisyGraph` computes, and has an attribute that its rule passes over. -/
def laterOperator : Onnx.Node where
  opType := "Relu"
  name := "late"
  inputs := ["y"]
  outputs := ["z"]
  attributes := [{ name := "note", type := 2 }]

theorem extended_noisyGraph : ∃ n n₀ n', (Network.build noisyGraph).result = .ok n ∧
    (Network.build noisyGraph.withoutOutputs).result = .ok n₀ ∧
    (Network.build (noisyGraph.extended [laterOperator])).result = .ok n' ∧
    n₀.nodes <+: n'.nodes ∧ n₀.inputs = n'.inputs ∧ n.outputs = n'.outputs ∧
    diagnosticsOf (Network.build noisyGraph.withoutOutputs).log
      <+: diagnosticsOf (Network.build (noisyGraph.extended [laterOperator])).log := by
  have hextended := @Network.build_extended noisyGraph [laterOperator] (by decide)
  obtain ⟨n, hn⟩ := Network.exists_build (g := noisyGraph) (by decide) (by decide +kernel)
  obtain ⟨n', hn'⟩ := Network.exists_build (g := noisyGraph.extended [laterOperator]) (by decide) (by decide +kernel)
  obtain ⟨n₀, hn₀, hnodes, hinputs, hfindings⟩ := hextended.1 n' hn'
  exact ⟨n, n₀, n', hn, hn₀, hn', hnodes, hinputs, hextended.2.2 n n' hn hn', hfindings⟩

end NetPack
