import NetPack.Proofs.Build.NodeLayout
import NetPack.Proofs.Build.Outcome
import NetPack.Proofs.Rename.Rule

/-!
# Networks under other names

If no two names become one, a graph under other names is built into the network under these names, or fails
with the failure under these names, and what is logged is the same but for the names (`Network.build_rename`).
So names count in no other way than by being equal or not.
-/

namespace NetPack

/-! ## Registries under other names -/

/-- The second registry has the nodes of the first one under other names, at the same positions. -/
structure Registry.Renamed (f : String → String) (r r' : Registry) : Prop where
  nodes : r'.nodes = r.nodes.map (Node.rename f)
  find? : ∀ name, r'.find? (f name) = r.find? name

namespace Registry.Renamed

variable {f : String → String} {r r' : Registry}

theorem empty : Registry.Renamed f .empty .empty := by
  refine ⟨Array.map_empty.symm, fun name => ?_⟩
  unfold Registry.find? Registry.empty
  rw [Std.HashMap.getElem?_empty, Std.HashMap.getElem?_empty]

theorem size_eq (h : r.Renamed f r') : r'.nodes.size = r.nodes.size := by
  rw [h.nodes, Array.size_map]

theorem contains_eq (h : r.Renamed f r') (name : String) :
    r'.index.contains (f name) = r.index.contains name := by
  have hfind := h.find? name
  unfold Registry.find? at hfind
  rw [Std.HashMap.contains_eq_isSome_getElem?, Std.HashMap.contains_eq_isSome_getElem?, hfind]

theorem name_rename (n : Node) : (n.rename f).name = f n.name := by
  cases n with
  | constant c => rfl
  | operator o => rfl
  | value name => rfl

theorem constant?_rename (n : Node) : (n.rename f).constant? = n.constant?.map (Constant.rename f) := by
  cases n with
  | constant c => rfl
  | operator o => rfl
  | value name => rfl

/-- The constants of the registries are the same under their names. -/
theorem constant? (h : r.Renamed f r') : Reading.RenamedTable f r.constant? r'.constant? := by
  intro name
  unfold Registry.constant?
  rw [h.find?, h.nodes]
  cases r.find? name with
  | none => rfl
  | some id =>
    simp only [Option.bind_eq_bind, Option.bind_some, Array.getElem?_map]
    cases r.nodes[id.toNat]? with
    | none => rfl
    | some n => exact constant?_rename n

/-- A node is put behind the others. The new name leads to it in both registries, and no other name does, since
different names stay different. -/
theorem push (hf : Function.Injective f) (h : r.Renamed f r') (n : Node) (id : NodeId) :
    Registry.Renamed f ⟨r.nodes.push n, r.index.insert n.name id⟩
      ⟨r'.nodes.push (n.rename f), r'.index.insert (f n.name) id⟩ := by
  refine ⟨?_, fun name => ?_⟩
  · rw [h.nodes, Array.map_push]
  · have hname : (f n.name == f name) = (n.name == name) := by
      rw [Bool.eq_iff_iff, beq_iff_eq, beq_iff_eq]
      exact hf.eq_iff
    have hfind := h.find? name
    unfold Registry.find? at hfind ⊢
    rw [Std.HashMap.getElem?_insert, Std.HashMap.getElem?_insert, hname, hfind]

end Registry.Renamed

/-! ## Steps under other names -/

namespace Build

open Registry (Renamed)

variable {f : String → String} {α α' β β' : Type} {value : α → α'} {value' : β → β'}

/-- Outcomes on registries that match: a renamed value and a renamed registry, or the renamed failure. -/
inductive Matches (f : String → String) (value : α → α') :
    Except Failure (α × Registry) → Except Failure (α' × Registry) → Prop
  | ok (a : α) {r r' : Registry} (h : r.Renamed f r') : Matches f value (.ok (a, r)) (.ok (value a, r'))
  | error (e : Failure) : Matches f value (.error e) (.error (e.rename f))

/-- On renamed registries the second step does what the first one does, under other names. -/
def RenamesStep (f : String → String) (value : α → α') (x : Build α) (y : Build α') : Prop :=
  ∀ r r', r.Renamed f r' → (y r').log = (x r).log.map (Event.rename f) ∧
    Matches f value (x r).result (y r').result

theorem RenamesStep.bind {x : Build α} {y : Build α'} {g : α → Build β} {g' : α' → Build β'}
    (h : RenamesStep f value x y) (hg : ∀ a, RenamesStep f value' (g a) (g' (value a))) :
    RenamesStep f value' (x >>= g) (y >>= g') := by
  intro r r' hr
  obtain ⟨hlog, hmatch⟩ := h r r' hr
  generalize hx : (x r).result = rx at hmatch
  generalize hy : (y r').result = ry at hmatch
  cases hmatch with
  | error e =>
    rw [bind_of_fails hx, bind_of_fails hy]
    exact ⟨hlog, .error e⟩
  | @ok a s s' hs =>
    obtain ⟨hlog', hmatch'⟩ := hg a s s' hs
    rw [bind_of_runs hx, bind_of_runs hy]
    refine ⟨?_, hmatch'⟩
    rw [List.map_append, hlog, hlog']

theorem RenamesStep.step {x y : Build α} {g : α → Build β} {g' : α → Build β'} (h : RenamesStep f id x y)
    (hg : ∀ a, RenamesStep f value' (g a) (g' a)) : RenamesStep f value' (x >>= g) (y >>= g') :=
  h.bind hg

theorem renamesStep_pure {a : α} {a' : α'} (h : a' = value a) : RenamesStep f value (pure a) (pure a') := by
  subst h
  exact fun r r' hr => ⟨rfl, .ok a hr⟩

theorem renamesStep_traced {x : Traced α} {y : Traced α'} (h : Renames f (Event.rename f) value x y) :
    RenamesStep f value (traced x) (traced y) := by
  intro r r' hr
  have hlog := h.log
  have hresult := h.result
  rw [show traced x r = x >>= fun a => pure (a, r) from rfl,
    show traced y r' = y >>= fun a => pure (a, r') from rfl]
  cases hx : x.result with
  | error e =>
    rw [hx] at hresult
    rw [Logged.bind_of_error _ hx, Logged.bind_of_error _ hresult]
    exact ⟨hlog, .error e⟩
  | ok a =>
    rw [hx] at hresult
    rw [Logged.bind_of_ok _ hx, Logged.bind_of_ok _ hresult]
    refine ⟨?_, .ok a hr⟩
    rw [List.map_append, hlog]
    rfl

theorem renamesStep_reported {x : Reported α} {y : Reported α'}
    (h : Renames f (Diagnostic.rename f) value x y) : RenamesStep f value (reported x) (reported y) :=
  renamesStep_traced (h.mapLog fun _ => rfl)

theorem renamesStep_get {g : Registry → Build β} {g' : Registry → Build β'}
    (h : ∀ s s', s.Renamed f s' → RenamesStep f value' (g s) (g' s')) :
    RenamesStep f value' (get >>= g) (get >>= g') :=
  fun r r' hr => h r r' hr r r' hr

/-- Steps for the elements of a list, one after the other, whose values have no names. -/
theorem renamesStep_mapM {w : α → α'} {g : α → Build β} {g' : α' → Build β}
    (h : ∀ a, RenamesStep f id (g a) (g' (w a))) (l : List α) :
    RenamesStep f id (l.mapM g) ((l.map w).mapM g') := by
  induction l with
  | nil => exact renamesStep_pure rfl
  | cons a l ih =>
    rw [List.map_cons, List.mapM_cons, List.mapM_cons]
    refine (h a).step fun b => ?_
    exact ih.step fun bs => renamesStep_pure rfl

theorem renamesStep_forM {w : α → α'} {g : α → Build Unit} {g' : α' → Build Unit}
    (h : ∀ a, RenamesStep f id (g a) (g' (w a))) (l : List α) :
    RenamesStep f id (l.forM g) ((l.map w).forM g') := by
  induction l with
  | nil => exact renamesStep_pure rfl
  | cons a l ih => exact (h a).step fun _ => ih

/-! ## Nodes -/

section Nodes

variable (hf : Function.Injective f)

include hf in
theorem renamesStep_add (n : Node) : RenamesStep f id (add n) (add (n.rename f)) := by
  intro r r' hr
  refine ⟨rfl, ?_⟩
  unfold add Logged.ofExcept Registry.add
  simp only [hr.size_eq, Renamed.name_rename, hr.contains_eq]
  by_cases hroom : Registry.capacity ≤ r.nodes.size
  · rw [if_pos hroom, if_pos hroom]
    exact .error .tooManyNodes
  · rw [if_neg hroom, if_neg hroom]
    by_cases hname : r.index.contains n.name
    · rw [if_pos hname, if_pos hname]
      exact .error (.duplicateNodeName n.name)
    · rw [if_neg hname, if_neg hname]
      exact .ok (UInt32.ofNat r.nodes.size) (hr.push hf n _)

theorem renamesStep_position {missing missing' : Failure} (name : String) (h : missing' = missing.rename f) :
    RenamesStep f id (position missing name) (position missing' (f name)) := by
  intro r r' hr
  unfold position
  rw [hr.find?, h]
  cases r.find? name with
  | none => exact ⟨rfl, .error missing⟩
  | some id => exact ⟨rfl, .ok id hr⟩

theorem renamesStep_positions (missing : String → Failure) {missing' : String → Failure}
    (h : ∀ name, missing' (f name) = (missing name).rename f) (names : List String) :
    RenamesStep f id (names.mapM fun name => position (missing name) name)
      ((names.map f).mapM fun name => position (missing' name) name) := by
  apply renamesStep_mapM
  intro name
  exact renamesStep_position name (h name)

include hf in
theorem renamesStep_values (names : List String) : RenamesStep f id (names.mapM fun name => add (.value name))
    ((names.map f).mapM fun name => add (.value name)) := by
  apply renamesStep_mapM
  intro name
  exact renamesStep_add hf (.value name)

include hf in
theorem renamesStep_addInput (name : String) : RenamesStep f id (addInput name) (addInput (f name)) := by
  intro r r' hr
  unfold addInput
  rw [hr.find?]
  cases r.find? name with
  | none => exact renamesStep_add hf (.value name) r r' hr
  | some id => exact ⟨rfl, .ok id hr⟩

include hf in
theorem renamesStep_addConstant {x y : Reported Constant}
    (h : Renames f (Diagnostic.rename f) (Constant.rename f) x y) :
    RenamesStep f id (do let _ ← addConstant x) (do let _ ← addConstant y) := by
  refine RenamesStep.step ?_ fun id => renamesStep_pure rfl
  exact (renamesStep_reported h).bind fun c => renamesStep_add hf (.constant c)

/-! ## Operators -/

theorem unhandled_rename (n : Onnx.Node) (notes : List Note) :
    (n.rename f).unhandled (notes.map (Note.rename f)) = n.unhandled notes := by
  have hseen : (notes.map (Note.rename f)).filterMap Note.name? = notes.filterMap Note.name? := by
    rw [List.filterMap_map]
    refine congrArg (fun w => notes.filterMap w) (funext fun note => ?_)
    cases note with
    | lookedAt name => rfl
    | found d => rfl
  have hnames : (n.rename f).attributes.map (·.name) = n.attributes.map (·.name) := List.map_map
  unfold Onnx.Node.unhandled
  rw [hseen, hnames]

theorem renames_attrs (n : Onnx.Node) (t : OpType) {constants constants' : ConstantTable}
    (h : Reading.RenamedTable f constants constants') : Renames f (Diagnostic.rename f) id
      (Build.attrs n t constants) (Build.attrs (n.rename f) t constants') := by
  have hrule := OpType.renames_rule (n := n) t h
  have hdiagnostic : ∀ note, Note.diagnostic? (Note.rename f note)
      = (Note.diagnostic? note).map (Diagnostic.rename f) := by
    intro note
    cases note with
    | lookedAt name => rfl
    | found d => rfl
  refine (hrule.filterMapLog hdiagnostic).step fun a => ?_
  refine (renames_tellAll ?_).step fun _ => renames_pure rfl
  rw [hrule.log, unhandled_rename, List.map_map]
  rfl

theorem renamesStep_operator (n : Onnx.Node) (outputs : List NodeId) :
    RenamesStep f (Operator.rename f) (operator n outputs) (operator (n.rename f) outputs) := by
  have hinputs := renamesStep_positions (f := f) (.unknownInput n.name) (fun _ => rfl) n.inputs
  refine hinputs.step fun inputs => ?_
  refine (renamesStep_traced (renames_ofOption rfl Option.map_id'.symm)).step fun t => ?_
  refine renamesStep_get fun s s' hs => ?_
  refine (renamesStep_reported (renames_attrs n t hs.constant?)).step fun a => ?_
  exact (renamesStep_traced ⟨rfl, rfl⟩).step fun _ => renamesStep_pure rfl

include hf in
theorem renamesStep_addOperator (n : Onnx.Node) :
    RenamesStep f id (addOperator n) (addOperator (n.rename f)) := by
  refine (renamesStep_values hf n.outputs).step fun outputs => ?_
  refine (renamesStep_operator n outputs).bind fun o => ?_
  exact (renamesStep_add hf (.operator o)).step fun _ => renamesStep_pure rfl

/-! ## Graphs -/

include hf in
theorem renamesStep_graph (g : Onnx.Graph) : RenamesStep f id (graph g) (graph (g.rename f)) := by
  have hfilter : ∀ p : Onnx.Node → Bool, (∀ n, p (n.rename f) = p n) →
      (g.rename f).nodes.filter p = (g.nodes.filter p).map (Onnx.Node.rename f) := by
    intro p hp
    rw [show (g.rename f).nodes = g.nodes.map (Onnx.Node.rename f) from rfl, List.filter_map]
    exact congrArg _ (List.filter_congr fun n _ => hp n)
  unfold graph
  rw [hfilter _ fun _ => rfl, hfilter _ fun _ => rfl]
  refine RenamesStep.step ?_ fun _ => RenamesStep.step ?_ fun _ => ?_
  · apply renamesStep_forM
    intro t
    exact renamesStep_addConstant hf (renames_toConstant f t)
  · apply renamesStep_forM
    intro n
    exact renamesStep_addConstant hf (Onnx.renames_constantOfNode f n)
  refine (renamesStep_mapM (renamesStep_addInput hf) g.inputs).step fun inputs => ?_
  refine (renamesStep_forM (renamesStep_addOperator hf) _).step fun _ => ?_
  have houtputs := renamesStep_positions (f := f) .unknownGraphOutput (fun _ => rfl) g.outputs
  exact houtputs.step fun outputs => renamesStep_pure rfl

end Nodes

end Build

/-! ## Networks -/

theorem diagnosticsOf_rename (f : String → String) (log : List Event) :
    diagnosticsOf (log.map (Event.rename f)) = (diagnosticsOf log).map (Diagnostic.rename f) := by
  unfold diagnosticsOf
  rw [List.filterMap_map, List.map_filterMap]
  refine congrArg (fun w => log.filterMap w) (funext fun e => ?_)
  cases e <;> rfl

/-- If the names of a graph are renamed without making two of them the same, the network, or the error, and each line of
the log are renamed as well, and nothing else is changed. -/
theorem Network.build_rename {f : String → String} (hf : Function.Injective f) (g : Onnx.Graph) :
    (Network.build (g.rename f)).result = renameResult f (Network.rename f) (Network.build g).result ∧
      (Network.build (g.rename f)).log = (Network.build g).log.map (Event.rename f) ∧
      diagnosticsOf (Network.build (g.rename f)).log
        = (diagnosticsOf (Network.build g).log).map (Diagnostic.rename f) := by
  obtain ⟨hlog, hmatch⟩ := Build.renamesStep_graph hf g .empty .empty .empty
  rw [← diagnosticsOf_rename]
  generalize hx : (Build.graph g .empty).result = rx at hmatch
  generalize hy : (Build.graph (g.rename f) .empty).result = ry at hmatch
  cases hmatch with
  | error e =>
    rw [build_of_fails hx, build_of_fails hy]
    exact ⟨rfl, hlog, congrArg diagnosticsOf hlog⟩
  | @ok p r r' hr =>
    have hnodes : r'.nodes.toList = r.nodes.toList.map (Node.rename f) := by
      rw [hr.nodes, Array.toList_map]
    have hevents : (Network.build (g.rename f)).log = (Network.build g).log.map (Event.rename f) := by
      rw [build_of_runs hx, build_of_runs hy, List.map_append, hlog, hnodes, List.length_map,
        diagnosticsOf_rename, List.length_map]
      rfl
    refine ⟨?_, hevents, congrArg diagnosticsOf hevents⟩
    rw [build_of_runs hx, build_of_runs hy, hnodes]
    rfl

/-- A prefix keeps names apart. -/
def inScope (name : String) : String :=
  "scope/" ++ name

theorem inScope_injective : Function.Injective inScope := by
  intro a b h
  exact String.append_right_inj _ |>.mp h

theorem rename_inScope : (Network.build (sumGraph.rename inScope)).result = .ok (sumNetwork.rename inScope) ∧
    (Network.build (crossedGraph.rename inScope)).result = .error (.unknownInput "scope/late" "scope/y") := by
  have hviolations : crossedGraph.violations = [.unknownInput "late" "y", .duplicateNodeName "z"] := by
    decide
  have hcrossed := Network.build_of_violations (by decide) hviolations
  constructor
  · rw [(Network.build_rename inScope_injective sumGraph).1, build_sumGraph]
    rfl
  · rw [(Network.build_rename inScope_injective crossedGraph).1, hcrossed]
    rfl

end NetPack
