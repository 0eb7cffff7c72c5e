import NetPack.Proofs.Build.Lookup
import NetPack.Proofs.Build.Run

/-!
# What the phases of building register

Each phase puts nodes behind those that are there and keeps the registry sound (`Grown`). The phases are
the constants (`constants_run`), the graph inputs (`inputs_run`) and the operators with their values
(`operators_run`); `graph_run` puts them together. What it says of a network leaves no choice: a graph
determines its network (`Built.unique`).
-/

namespace NetPack

/-! ## Growth -/

/-- The second registry is sound and has nodes behind those of the first one. -/
structure Grown (r : Registry) (l : List Node) (r' : Registry) : Prop where
  sound : r'.Sound
  nodes : r'.nodes.toList = r.nodes.toList ++ l

section Grown

variable {r r' r'' : Registry} {l l' : List Node}

theorem Grown.refl (h : r.Sound) : Grown r [] r :=
  ⟨h, (List.append_nil _).symm⟩

theorem Grown.trans (h : Grown r l r') (h' : Grown r' l' r'') : Grown r (l ++ l') r'' :=
  ⟨h'.sound, by rw [h'.nodes, h.nodes, List.append_assoc]⟩

theorem Grown.of_add {n : Node} {id : NodeId} (h : r.Sound) (ha : r.add n = .ok (id, r')) :
    Grown r [n] r' := by
  refine ⟨h.add ha, ?_⟩
  obtain ⟨-, -, -, rfl⟩ := Registry.add_eq_ok_iff.mp ha
  exact Array.toList_push

theorem toNat_of_add {n : Node} {id : NodeId} (ha : r.add n = .ok (id, r')) :
    id.toNat = r.nodes.toList.length := by
  obtain ⟨hroom, -, rfl, -⟩ := Registry.add_eq_ok_iff.mp ha
  rw [Registry.toNat_ofNat hroom, Array.length_toList]

theorem nameAt?_of_add {n : Node} {id : NodeId} (h : r.Sound) (ha : r.add n = .ok (id, r')) :
    nameAt? r'.nodes.toList id = some n.name := by
  rw [(Grown.of_add h ha).nodes, Registry.nameAt?_concat, if_pos (toNat_of_add ha)]

end Grown

namespace Build

variable {r r' : Registry}

/-! ## Constants -/

theorem constants_run {α : Type} {make : α → Reported Constant} {l : List α} {u : Unit} (hs : r.Sound)
    (h : Runs (l.forM fun a => do let _ ← addConstant (make a)) r u r') :
    ∃ cs, List.Forall₂ (fun a c => (make a).result = .ok c) l cs ∧ Grown r (cs.map .constant) r' := by
  induction l generalizing r with
  | nil =>
    rw [runs_forM_nil] at h
    subst h
    exact ⟨[], .nil, .refl hs⟩
  | cons a l ih =>
    obtain ⟨r₁, hhead, htail⟩ := runs_forM_cons.mp h
    obtain ⟨id, r₂, hadd, hpure⟩ := runs_bind.mp hhead
    obtain ⟨-, rfl⟩ := runs_pure.mp hpure
    obtain ⟨c, hc, ha⟩ := runs_addConstant.mp hadd
    have hgrown := Grown.of_add hs ha
    obtain ⟨cs, hcs, hrest⟩ := ih hgrown.sound htail
    exact ⟨c :: cs, .cons hc hcs, hgrown.trans hrest⟩

/-! ## Graph inputs -/

/-- The names that no node has, each at its first occurrence. -/
def newNames (ns : List Node) (names : List String) : List String :=
  (names.filter fun name => !(ns.map Node.name).contains name).eraseDups

theorem name_value (name : String) : (Node.value name).name = name := rfl

theorem newNames_cons_of_mem {ns : List Node} {name : String} (names : List String)
    (h : name ∈ ns.map Node.name) : newNames ns (name :: names) = newNames ns names := by
  rw [newNames, List.filter_cons_of_neg (by simpa using h), newNames]

theorem newNames_cons_of_not_mem {ns : List Node} {name : String} (names : List String)
    (h : name ∉ ns.map Node.name) :
    newNames ns (name :: names) = name :: newNames (ns ++ [.value name]) names := by
  rw [newNames, List.filter_cons_of_pos (by simpa using h), List.eraseDups_cons, List.filter_filter,
    newNames]
  congr 2
  refine List.filter_congr fun other _ => ?_
  rw [Bool.eq_iff_iff]
  simp [name_value, and_comm]

theorem inputs_run {names : List String} {ids : List NodeId} (hs : r.Sound)
    (h : Runs (names.mapM addInput) r ids r') :
    Grown r ((newNames r.nodes.toList names).map .value) r' ∧ Names r'.nodes.toList ids names := by
  induction names generalizing r ids with
  | nil =>
    obtain ⟨rfl, rfl⟩ := runs_mapM_nil.mp h
    exact ⟨.refl hs, .nil⟩
  | cons name names ih =>
    obtain ⟨id, r₁, ids', hhead, htail, rfl⟩ := runs_mapM_cons.mp h
    rcases runs_addInput.mp hhead with ⟨hfind, rfl⟩ | ⟨hnone, ha⟩
    · obtain ⟨hgrown, hnames⟩ := ih hs htail
      have hat := (hs.find?_iff name id).mp hfind
      rw [newNames_cons_of_mem names (hs.mem_of_find? hfind)]
      refine ⟨hgrown, .cons ?_ hnames⟩
      rw [hgrown.nodes]
      exact nameAt?_append hat _
    · have hfirst := Grown.of_add hs ha
      obtain ⟨hgrown, hnames⟩ := ih hfirst.sound htail
      rw [newNames_cons_of_not_mem names ((hs.find?_eq_none_iff name).mp hnone), ← hfirst.nodes]
      refine ⟨hfirst.trans hgrown, .cons ?_ hnames⟩
      rw [hgrown.nodes]
      exact nameAt?_append (nameAt?_of_add hs ha) _

/-! ## Operators -/

theorem positions_run {missing : String → Failure} {names : List String} {ids : List NodeId}
    (hs : r.Sound) (h : Runs (names.mapM fun name => position (missing name) name) r ids r') :
    r' = r ∧ Names r.nodes.toList ids names := by
  induction names generalizing ids with
  | nil =>
    obtain ⟨rfl, rfl⟩ := runs_mapM_nil.mp h
    exact ⟨rfl, .nil⟩
  | cons name names ih =>
    obtain ⟨id, r₁, ids', hhead, htail, rfl⟩ := runs_mapM_cons.mp h
    obtain ⟨hfind, rfl⟩ := runs_position.mp hhead
    obtain ⟨rfl, hnames⟩ := ih htail
    exact ⟨rfl, .cons ((hs.find?_iff name id).mp hfind) hnames⟩

theorem values_run {names : List String} {ids : List NodeId} (hs : r.Sound)
    (h : Runs (names.mapM fun name => add (.value name)) r ids r') :
    Grown r (names.map .value) r' ∧
      ids.map UInt32.toNat = List.range' r.nodes.toList.length names.length := by
  induction names generalizing r ids with
  | nil =>
    obtain ⟨rfl, rfl⟩ := runs_mapM_nil.mp h
    exact ⟨.refl hs, rfl⟩
  | cons name names ih =>
    obtain ⟨id, r₁, ids', ha, htail, rfl⟩ := runs_mapM_cons.mp h
    have hfirst := Grown.of_add hs ha
    obtain ⟨hgrown, hids⟩ := ih hfirst.sound htail
    refine ⟨hfirst.trans hgrown, ?_⟩
    rw [List.map_cons, hids, toNat_of_add ha, hfirst.nodes, List.length_append]
    rfl

/-- The operator of an ONNX operator, where `before` are the nodes before its values. -/
structure Converted (before : List Node) (n : Onnx.Node) (o : Operator) : Prop where
  name : o.name = n.name
  opType : OpType.ofName? n.opType = some o.opType
  attrs : (o.opType.rule n (.ofList ((before ++ n.outputs.map Node.value).filterMap Node.constant?))).result
    = .ok o.attrs
  inputs : Names (before ++ n.outputs.map .value) o.inputs n.inputs
  outputs : o.outputs.map UInt32.toNat = List.range' before.length n.outputs.length

/-- What an ONNX operator becomes is determined by it and by what stands before it. -/
theorem Converted.unique {before : List Node} {n : Onnx.Node} {o o' : Operator}
    (hn : ((before ++ n.outputs.map Node.value).map Node.name).Nodup) (h : Converted before n o)
    (h' : Converted before n o') : o = o' := by
  have hname := h.name.trans h'.name.symm
  have htype := Option.some.inj (h.opType.symm.trans h'.opType)
  have hrule := h.attrs
  rw [htype] at hrule
  have hattrs := Except.ok.inj (hrule.symm.trans h'.attrs)
  have hinputs := Names.unique hn h.inputs h'.inputs
  have houtputs : o.outputs = o'.outputs :=
    (List.map_inj_right fun _ _ => UInt32.toNat_inj.mp).mp (h.outputs.trans h'.outputs.symm)
  cases o
  cases o'
  rw [Operator.mk.injEq]
  exact ⟨hname, htype, hattrs, hinputs, houtputs⟩

/-- The nodes of an operator: its values and itself. -/
def operatorNodes (n : Onnx.Node) (o : Operator) : List Node :=
  n.outputs.map .value ++ [.operator o]

theorem operator_run {n : Onnx.Node} {outputs : List NodeId} {o : Operator} (hs : r.Sound)
    (h : Runs (operator n outputs) r o r') :
    r' = r ∧ o.name = n.name ∧ OpType.ofName? n.opType = some o.opType ∧
      (Build.attrs n o.opType r.constant?).result = .ok o.attrs ∧
      Names r.nodes.toList o.inputs n.inputs ∧ o.outputs = outputs := by
  obtain ⟨inputs, r₁, hinputs, h₁⟩ := runs_bind.mp h
  obtain ⟨opType, r₂, htype, h₂⟩ := runs_bind.mp h₁
  obtain ⟨s, r₃, hget, h₃⟩ := runs_bind.mp h₂
  obtain ⟨a, r₄, ha, h₄⟩ := runs_bind.mp h₃
  obtain ⟨u, r₅, htell, h₅⟩ := runs_bind.mp h₄
  obtain ⟨rfl, hnames⟩ := positions_run hs hinputs
  obtain ⟨hname, rfl⟩ := runs_ofOption.mp htype
  obtain ⟨rfl, rfl⟩ := runs_get.mp hget
  obtain ⟨ha, rfl⟩ := runs_reported.mp ha
  obtain ⟨-, rfl⟩ := runs_traced.mp htell
  obtain ⟨rfl, rfl⟩ := runs_pure.mp h₅
  exact ⟨rfl, rfl, hname, ha, hnames, rfl⟩

theorem addOperator_run {n : Onnx.Node} {u : Unit} (hs : r.Sound) (h : Runs (addOperator n) r u r') :
    ∃ o, Converted r.nodes.toList n o ∧ Grown r (operatorNodes n o) r' := by
  obtain ⟨outputs, r₁, hvalues, h₁⟩ := runs_bind.mp h
  obtain ⟨o, r₂, ho, h₂⟩ := runs_bind.mp h₁
  obtain ⟨id, r₃, ha, h₃⟩ := runs_bind.mp h₂
  obtain ⟨hgrown, hids⟩ := values_run hs hvalues
  obtain ⟨rfl, hname, htype, hattrs, hinputs, rfl⟩ := operator_run hgrown.sound ho
  obtain ⟨-, rfl⟩ := runs_pure.mp h₃
  rw [result_attrs, hgrown.sound.constant?_eq, hgrown.nodes] at hattrs
  rw [hgrown.nodes] at hinputs
  exact ⟨o, ⟨hname, htype, hattrs, hinputs, hids⟩, hgrown.trans (.of_add hgrown.sound ha)⟩

/-- The second list of nodes comes from the first one by the conversion of ONNX operators in order. -/
inductive Appended : List Node → List Onnx.Node → List Node → Prop
  | nil {before : List Node} : Appended before [] before
  | cons {before after : List Node} {n : Onnx.Node} {l : List Onnx.Node} {o : Operator}
      (head : Converted before n o) (tail : Appended (before ++ operatorNodes n o) l after) :
      Appended before (n :: l) after

theorem Appended.exists_append {before after : List Node} {l : List Onnx.Node}
    (h : Appended before l after) : ∃ more, before ++ more = after := by
  induction h with
  | nil => exact ⟨[], List.append_nil _⟩
  | cons _ _ ih =>
    obtain ⟨more, rfl⟩ := ih
    exact ⟨_, (List.append_assoc _ _ _).symm⟩

theorem Appended.eq_of_nil {before after : List Node} (h : Appended before [] after) : after = before := by
  cases h
  rfl

/-- The induction is over the operators; each of them becomes the same, so the next ones have the same before
them. -/
theorem Appended.unique {before after after' : List Node} {l : List Onnx.Node} (h : Appended before l after)
    (h' : Appended before l after') (hn : (after.map Node.name).Nodup) : after = after' := by
  induction h with
  | nil => exact h'.eq_of_nil.symm
  | @cons before after n l o head tail ih =>
    cases h' with
    | cons head' tail' =>
      obtain ⟨more, rfl⟩ := tail.exists_append
      have hvalues : ((before ++ n.outputs.map Node.value).map Node.name).Nodup := by
        rw [operatorNodes, ← List.append_assoc, List.append_assoc _ _ more, List.map_append] at hn
        exact (List.nodup_append.mp hn).1
      obtain rfl := head.unique hvalues head'
      exact ih tail' hn

theorem operators_run {l : List Onnx.Node} {u : Unit} (hs : r.Sound)
    (h : Runs (l.forM addOperator) r u r') :
    r'.Sound ∧ Appended r.nodes.toList l r'.nodes.toList := by
  induction l generalizing r with
  | nil =>
    rw [runs_forM_nil] at h
    subst h
    exact ⟨hs, .nil⟩
  | cons n l ih =>
    obtain ⟨r₁, hhead, htail⟩ := runs_forM_cons.mp h
    obtain ⟨o, hconverted, hgrown⟩ := addOperator_run hs hhead
    obtain ⟨hsound, happended⟩ := ih hgrown.sound htail
    rw [hgrown.nodes] at happended
    exact ⟨hsound, .cons hconverted happended⟩

/-! ## Graphs -/

/-- The constants of a graph: those of its initializers and those of its operators of type `Constant`. -/
structure ConstantsOf (g : Onnx.Graph) (inits consts : List Constant) : Prop where
  inits : List.Forall₂ (fun t c => t.toConstant.result = .ok c) g.initializers inits
  consts : List.Forall₂ (fun n c => n.toConstant.result = .ok c)
    (g.nodes.filter fun n => n.isConstant) consts

/-- The nodes in front of the operators: the constants, and the graph inputs that are no constants. -/
def leading (g : Onnx.Graph) (inits consts : List Constant) : List Node :=
  let constants : List Node := inits.map .constant ++ consts.map .constant
  constants ++ (newNames constants g.inputs).map .value

/-- The nodes of a graph in a network, and the positions of its inputs and outputs. -/
structure Built (g : Onnx.Graph) (n : Network) (inits consts : List Constant) : Prop where
  nodup : (n.nodes.map Node.name).Nodup
  inputs : Names n.nodes n.inputs g.inputs
  outputs : Names n.nodes n.outputs g.outputs
  constants : ConstantsOf g inits consts
  appended : Appended (leading g inits consts) (g.nodes.filter fun n => !n.isConstant) n.nodes

/-- A graph determines its network. -/
theorem Built.unique {g : Onnx.Graph} {n n' : Network} {inits inits' consts consts' : List Constant}
    (h : Built g n inits consts) (h' : Built g n' inits' consts') : n = n' := by
  have hinits : inits = inits' :=
    List.right_unique_forall₂' (fun _ _ _ hc hc' => Except.ok.inj (hc.symm.trans hc')) h.constants.inits
      h'.constants.inits
  have hconsts : consts = consts' :=
    List.right_unique_forall₂' (fun _ _ _ hc hc' => Except.ok.inj (hc.symm.trans hc')) h.constants.consts
      h'.constants.consts
  subst hinits hconsts
  obtain ⟨nodes, inputs, outputs⟩ := n
  obtain ⟨nodes', inputs', outputs'⟩ := n'
  obtain rfl : nodes = nodes' := h.appended.unique h'.appended h.nodup
  obtain rfl : inputs = inputs' := Names.unique h.nodup h.inputs h'.inputs
  obtain rfl : outputs = outputs' := Names.unique h.nodup h.outputs h'.outputs
  rfl

theorem graph_run {g : Onnx.Graph} {inputs outputs : List NodeId}
    (h : Runs (graph g) .empty (inputs, outputs) r) :
    ∃ inits consts, Built g ⟨r.nodes.toList, inputs, outputs⟩ inits consts := by
  obtain ⟨u₁, r₁, hinits, h₁⟩ := runs_bind.mp h
  obtain ⟨u₂, r₂, hconsts, h₂⟩ := runs_bind.mp h₁
  obtain ⟨ids, r₃, hinputs, h₃⟩ := runs_bind.mp h₂
  obtain ⟨u₄, r₄, hoperators, h₄⟩ := runs_bind.mp h₃
  obtain ⟨ids', r₅, houtputs, h₅⟩ := runs_bind.mp h₄
  obtain ⟨inits, hi, hg₁⟩ := constants_run Registry.sound_empty hinits
  obtain ⟨consts, hc, hg₂⟩ := constants_run hg₁.sound hconsts
  obtain ⟨hg₃, hnames⟩ := inputs_run hg₂.sound hinputs
  obtain ⟨hsound, happended⟩ := operators_run hg₃.sound hoperators
  obtain ⟨rfl, hnames'⟩ := positions_run hsound houtputs
  obtain ⟨heq, rfl⟩ := runs_pure.mp h₅
  cases heq
  have hconstants : r₂.nodes.toList = inits.map Node.constant ++ consts.map Node.constant :=
    (hg₁.trans hg₂).nodes
  obtain ⟨more, hmore⟩ := happended.exists_append
  refine ⟨inits, consts, hsound.nodup, ?_, hnames', ⟨hi, hc⟩, ?_⟩
  · rw [← hmore]
    exact hnames.append more
  · rw [hg₃.nodes, hconstants] at happended
    exact happended

end Build

theorem Network.built {g : Onnx.Graph} {n : Network} (h : (Network.build g).result = .ok n) :
    ∃ inits consts, Build.Built g n inits consts := by
  obtain ⟨r, hruns, hnodes⟩ := Network.result_build_eq_ok_iff.mp h
  obtain ⟨inits, consts, hb⟩ := Build.graph_run hruns
  rw [hnodes] at hb
  exact ⟨inits, consts, hb⟩

end NetPack
