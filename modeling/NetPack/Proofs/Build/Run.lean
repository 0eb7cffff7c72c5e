import NetPack.Build
import NetPack.Proofs.Build.Registry

/-!
# Successful runs of build steps

`Runs x r a r'` says that a step succeeds on a registry with a value and leaves another registry. A
sequence of steps runs if each of them does (`runs_bind`), and each step on the registry has a lemma that
says when it runs and what it does (`runs_add` and those after it).
-/

namespace NetPack

namespace Build

variable {α β : Type} {r r' : Registry}

def Runs (x : Build α) (r : Registry) (a : α) (r' : Registry) : Prop :=
  (x r).result = .ok (a, r')

/-! ## Sequences -/

theorem pure_apply (a : α) : (pure a : Build α) r = pure (a, r) := rfl

theorem runs_pure {a a' : α} : Runs (pure a) r a' r' ↔ a' = a ∧ r' = r := by
  rw [Runs, pure_apply, Logged.result_pure, Except.ok.injEq,
    Prod.mk.injEq, eq_comm, eq_comm (a := r)]

theorem runs_bind {x : Build α} {f : α → Build β} {b : β} :
    Runs (x >>= f) r b r' ↔ ∃ a r₁, Runs x r a r₁ ∧ Runs (f a) r₁ b r' := by
  rw [Runs, show (x >>= f) r = x r >>= fun p => f p.1 p.2 from rfl, Logged.result_bind_eq_ok_iff]
  exact Prod.exists

theorem bind_of_runs {x : Build α} {f : α → Build β} {a : α} (h : Runs x r a r') :
    (x >>= f) r = ⟨(x r).log ++ (f a r').log, (f a r').result⟩ :=
  Logged.bind_of_ok (fun p : α × Registry => f p.1 p.2) h

theorem bind_of_fails {x : Build α} {f : α → Build β} {e : Failure} (h : (x r).result = .error e) :
    (x >>= f) r = ⟨(x r).log, .error e⟩ :=
  Logged.bind_of_error (fun p : α × Registry => f p.1 p.2) h

theorem runs_get {s : Registry} : Runs get r s r' ↔ s = r ∧ r' = r :=
  runs_pure (a := r)

theorem runs_mapM_nil {f : α → Build β} {bs : List β} :
    Runs (([] : List α).mapM f) r bs r' ↔ bs = [] ∧ r' = r := by
  rw [List.mapM_nil, runs_pure]

theorem runs_mapM_cons {f : α → Build β} {a : α} {l : List α} {bs : List β} :
    Runs ((a :: l).mapM f) r bs r' ↔
      ∃ b r₁ bs', Runs (f a) r b r₁ ∧ Runs (l.mapM f) r₁ bs' r' ∧ bs = b :: bs' := by
  rw [List.mapM_cons, runs_bind]
  simp only [runs_bind, runs_pure]
  constructor
  · rintro ⟨b, r₁, hb, bs', r₂, hbs, rfl, rfl⟩
    exact ⟨b, r₁, bs', hb, hbs, rfl⟩
  · rintro ⟨b, r₁, bs', hb, hbs, rfl⟩
    exact ⟨b, r₁, hb, bs', r', hbs, rfl, rfl⟩

theorem runs_forM_nil {f : α → Build Unit} {u : Unit} : Runs (([] : List α).forM f) r u r' ↔ r' = r := by
  rw [List.forM, runs_pure]
  exact and_iff_right rfl

theorem runs_forM_cons {f : α → Build Unit} {a : α} {l : List α} {u : Unit} :
    Runs ((a :: l).forM f) r u r' ↔ ∃ r₁, Runs (f a) r () r₁ ∧ Runs (l.forM f) r₁ u r' := by
  rw [List.forM, runs_bind]
  exact ⟨fun ⟨_, h⟩ => h, fun h => ⟨(), h⟩⟩

theorem exists_runs_of_mem {f : α → Build Unit} {a : α} {l : List α} {u : Unit} (ha : a ∈ l)
    (h : Runs (l.forM f) r u r') : ∃ r₁ r₂, Runs (f a) r₁ () r₂ := by
  induction l generalizing r with
  | nil => exact absurd ha List.not_mem_nil
  | cons b l ih =>
    obtain ⟨r₁, hhead, htail⟩ := runs_forM_cons.mp h
    rcases List.mem_cons.mp ha with rfl | hmem
    · exact ⟨r, r₁, hhead⟩
    · exact ih hmem htail

/-! ## Steps -/

theorem runs_traced {x : Traced α} {a : α} : Runs (traced x) r a r' ↔ x.result = .ok a ∧ r' = r := by
  rw [Runs, show traced x r = x >>= fun b => pure (b, r) from rfl, Logged.result_bind_eq_ok_iff]
  simp only [Logged.result_pure, Except.ok.injEq, Prod.mk.injEq]
  constructor
  · rintro ⟨b, hb, rfl, rfl⟩
    exact ⟨hb, rfl⟩
  · rintro ⟨ha, rfl⟩
    exact ⟨a, ha, rfl, rfl⟩

theorem runs_reported {x : Reported α} {a : α} :
    Runs (reported x) r a r' ↔ x.result = .ok a ∧ r' = r :=
  runs_traced

theorem runs_ofOption {e : Failure} {a? : Option α} {a : α} :
    Runs (traced (.ofOption e a?)) r a r' ↔ a? = some a ∧ r' = r := by
  rw [runs_traced]
  refine and_congr_left' ?_
  cases a? with
  | none => exact iff_of_false (fun h => nomatch h) (fun h => nomatch h)
  | some b => rw [Option.some.injEq, Logged.ofOption, Logged.result_pure, Except.ok.injEq]

theorem runs_add {n : Node} {id : NodeId} : Runs (add n) r id r' ↔ r.add n = .ok (id, r') :=
  Iff.rfl

theorem runs_position {missing : Failure} {name : String} {id : NodeId} :
    Runs (position missing name) r id r' ↔ r.find? name = some id ∧ r' = r := by
  rw [Runs, position]
  cases h : r.find? name with
  | none => simp [Logged.fail]
  | some id' =>
    simp only [Logged.result_pure, Except.ok.injEq, Prod.mk.injEq, Option.some.injEq]
    exact and_congr_right fun _ => eq_comm

theorem runs_addInput {name : String} {id : NodeId} :
    Runs (addInput name) r id r' ↔ (r.find? name = some id ∧ r' = r) ∨
      (r.find? name = none ∧ r.add (.value name) = .ok (id, r')) := by
  rw [Runs, addInput]
  cases h : r.find? name with
  | none => simp [add, Logged.ofExcept]
  | some id' =>
    simp only [Logged.result_pure, Except.ok.injEq, Prod.mk.injEq, Option.some.injEq, reduceCtorEq,
      false_and, or_false]
    exact and_congr_right fun _ => eq_comm

theorem runs_addConstant {c : Reported Constant} {id : NodeId} :
    Runs (addConstant c) r id r' ↔
      ∃ k, c.result = .ok k ∧ r.add (.constant k) = .ok (id, r') := by
  rw [addConstant, runs_bind]
  simp only [runs_reported, runs_add]
  constructor
  · rintro ⟨k, r₁, ⟨hk, rfl⟩, ha⟩
    exact ⟨k, hk, ha⟩
  · rintro ⟨k, hk, ha⟩
    exact ⟨k, r, ⟨hk, rfl⟩, ha⟩

/-! ## Attributes -/

theorem attrs_of_ok {n : Onnx.Node} {t : OpType} {constants : ConstantTable} {a : Attrs}
    (h : (t.rule n constants).result = .ok a) : Build.attrs n t constants =
      ⟨(t.rule n constants).log.filterMap Note.diagnostic?
        ++ (n.unhandled (t.rule n constants).log).map (.unhandledAttribute n.name n.opType), .ok a⟩ := by
  simp [Build.attrs, bind, Logged.andThen, Logged.filterMapLog, h, Logged.tellAll, pure]

theorem attrs_of_error {n : Onnx.Node} {t : OpType} {constants : ConstantTable} {e : Failure}
    (h : (t.rule n constants).result = .error e) : Build.attrs n t constants =
      ⟨(t.rule n constants).log.filterMap Note.diagnostic?, .error e⟩ := by
  simp [Build.attrs, bind, Logged.andThen, Logged.filterMapLog, h]

theorem result_attrs (n : Onnx.Node) (t : OpType) (constants : ConstantTable) :
    (Build.attrs n t constants).result = (t.rule n constants).result := by
  cases h : (t.rule n constants).result with
  | error e => rw [attrs_of_error h]
  | ok a => rw [attrs_of_ok h]

end Build

/-! ## Networks -/

theorem Network.build_of_runs {g : Onnx.Graph} {inputs outputs : List NodeId} {r : Registry}
    (h : Build.Runs (Build.graph g) .empty (inputs, outputs) r) : Network.build g =
      ⟨(Build.graph g .empty).log ++ [.builtGraph r.nodes.toList.length inputs.length outputs.length
        (diagnosticsOf (Build.graph g .empty).log).length], .ok ⟨r.nodes.toList, inputs, outputs⟩⟩ := by
  have hnodes : Network.ofNodes g = ⟨(Build.graph g .empty).log ++ [], .ok ⟨_, inputs, outputs⟩⟩ :=
    Logged.bind_of_ok _ h
  rw [List.append_nil] at hnodes
  simp [Network.build, hnodes, Logged.withLog, Except.map, bind, Logged.andThen, Logged.tell, pure]

theorem Network.build_of_fails {g : Onnx.Graph} {e : Failure}
    (h : (Build.graph g .empty).result = .error e) :
    Network.build g = ⟨(Build.graph g .empty).log, .error e⟩ := by
  have hnodes : Network.ofNodes g = ⟨(Build.graph g .empty).log, .error e⟩ :=
    Logged.bind_of_error _ h
  simp [Network.build, hnodes, Logged.withLog, Except.map, bind, Logged.andThen]

theorem Network.result_build_eq_ok_iff {g : Onnx.Graph} {n : Network} :
    (Network.build g).result = .ok n ↔
      ∃ r, Build.Runs (Build.graph g) .empty (n.inputs, n.outputs) r ∧ r.nodes.toList = n.nodes := by
  constructor
  · intro h
    cases hg : (Build.graph g .empty).result with
    | error e =>
      rw [build_of_fails hg] at h
      cases h
    | ok p =>
      have hruns : Build.Runs (Build.graph g) .empty (p.1.1, p.1.2) p.2 := hg
      rw [build_of_runs hruns] at h
      cases h
      exact ⟨p.2, hruns, rfl⟩
  · rintro ⟨r, hruns, hnodes⟩
    rw [build_of_runs hruns, hnodes]

end NetPack
