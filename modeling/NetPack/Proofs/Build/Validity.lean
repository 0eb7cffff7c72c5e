import Mathlib.Data.List.Nodup
import NetPack.Network.Basic
import NetPack.Rule.Operators

/-!
# Valid graphs

A graph is valid if its constants can be made, its nodes have names of their own, each name that it
refers to is declared by then, and its operators are supported with the attributes that they have
(`Onnx.Graph.Valid`). What is wrong with a graph can also be listed, in the order in which building
looks for it (`Onnx.Graph.violations`); a graph is valid if and only if the list is empty
(`Onnx.Graph.valid_iff`).
-/

namespace NetPack

/-! ## Lists read from the left -/

/-- What a function finds at each element of a list, given the elements in front of it. -/
def inTurn {α β : Type} (f : List α → α → List β) (earlier : List α) : List α → List β
  | [] => []
  | a :: l => f earlier a ++ inTurn f (earlier ++ [a]) l

section InTurn

variable {α β : Type} {f g : List α → α → List β} {earlier l : List α}

theorem inTurn_append (l' : List α) :
    inTurn f earlier (l ++ l') = inTurn f earlier l ++ inTurn f (earlier ++ l) l' := by
  induction l generalizing earlier with
  | nil => rw [List.append_nil]; rfl
  | cons a l ih => rw [List.cons_append, inTurn, inTurn, ih, List.append_assoc, List.append_assoc,
      List.singleton_append]

theorem inTurn_eq_nil_iff :
    inTurn f earlier l = [] ↔ ∀ before a after, l = before ++ a :: after → f (earlier ++ before) a = [] := by
  induction l generalizing earlier with
  | nil => simp [inTurn]
  | cons b l ih =>
    rw [inTurn, List.append_eq_nil_iff, ih]
    constructor
    · rintro ⟨hb, hl⟩ before a after heq
      cases before with
      | nil =>
        cases heq
        simpa using hb
      | cons c before =>
        cases heq
        simpa using hl before a after rfl
    · intro h
      refine ⟨by simpa using h [] b l rfl, fun before a after heq => ?_⟩
      simpa using h (b :: before) a after (by rw [heq, List.cons_append])

theorem inTurn_append_eq_nil_iff :
    inTurn (fun before a => f before a ++ g before a) earlier l = [] ↔
      inTurn f earlier l = [] ∧ inTurn g earlier l = [] := by
  simp only [inTurn_eq_nil_iff, List.append_eq_nil_iff]
  exact ⟨fun h => ⟨fun b a c hl => (h b a c hl).1, fun b a c hl => (h b a c hl).2⟩,
    fun h b a c hl => ⟨h.1 b a c hl, h.2 b a c hl⟩⟩

theorem inTurn_const_eq_nil_iff {f : α → List β} :
    inTurn (fun _ a => f a) earlier l = [] ↔ ∀ a ∈ l, f a = [] := by
  rw [inTurn_eq_nil_iff]
  constructor
  · intro h a ha
    obtain ⟨before, after, rfl⟩ := List.append_of_mem ha
    exact h before a after rfl
  · rintro h before a after rfl
    exact h a (by simp)

end InTurn

/-! ## Fresh names -/

/-- The names of the second list differ from each other and from those of the first one. -/
def Fresh (names l : List String) : Prop :=
  l.Nodup ∧ ∀ x ∈ l, x ∉ names

theorem fresh_nil (names : List String) : Fresh names [] :=
  ⟨List.nodup_nil, fun _ hx => absurd hx List.not_mem_nil⟩

theorem fresh_singleton {names : List String} {x : String} : Fresh names [x] ↔ x ∉ names := by
  simp [Fresh]

theorem fresh_append {names l l' : List String} :
    Fresh names (l ++ l') ↔ Fresh names l ∧ Fresh (names ++ l) l' := by
  simp only [Fresh, List.nodup_append, List.mem_append, not_or]
  constructor
  · rintro ⟨⟨hl, hl', hne⟩, h⟩
    exact ⟨⟨hl, fun x hx => h x (.inl hx)⟩, hl', fun x hx => ⟨h x (.inr hx), fun hx' => hne x hx' x hx rfl⟩⟩
  · rintro ⟨⟨hl, h⟩, hl', h'⟩
    refine ⟨⟨hl, hl', fun x hx y hy hxy => (h' y hy).2 (hxy ▸ hx)⟩, ?_⟩
    rintro x (hx | hx)
    · exact h x hx
    · exact (h' x hx).1

/-- The failure to register a name beside other ones. -/
def clash (names : List String) (name : String) : List Failure :=
  if name ∈ names then [.duplicateNodeName name] else []

theorem clash_eq_nil_iff {names : List String} {name : String} :
    clash names name = [] ↔ name ∉ names := by
  simp [clash]

theorem inTurn_clash_eq_nil_iff {α : Type} (name? : α → Option String) (names : List String)
    (earlier l : List α) :
    inTurn (fun before a => (name? a).toList.flatMap (clash (names ++ before.filterMap name?)))
      earlier l = [] ↔ Fresh (names ++ earlier.filterMap name?) (l.filterMap name?) := by
  induction l generalizing earlier with
  | nil => exact iff_of_true rfl (fresh_nil _)
  | cons a l ih =>
    rw [inTurn, List.append_eq_nil_iff, ih, List.filterMap_append]
    cases h : name? a with
    | none => simp [h]
    | some x =>
      have hcons : (a :: l).filterMap name? = [x] ++ l.filterMap name? := List.filterMap_cons_some h
      rw [hcons, fresh_append, fresh_singleton]
      simp [h, clash_eq_nil_iff]

/-- The failure of a computation, if it fails. -/
def Logged.faults {ε ω α : Type} (x : Logged ε ω α) : List ε :=
  match x.result with
  | .ok _ => []
  | .error e => [e]

theorem Logged.faults_eq_nil_iff {ε ω α : Type} {x : Logged ε ω α} :
    x.faults = [] ↔ ∃ a, x.result = .ok a := by
  rw [faults]
  cases x.result <;> simp

/-- What is wrong with sources of constants beside other names: whether each one makes a constant is
looked at before its name. -/
def constantViolations {α : Type} (make : α → Reported Constant) (name? : α → Option String)
    (names : List String) (l : List α) : List Failure :=
  inTurn (fun before a => (make a).faults
    ++ (name? a).toList.flatMap (clash (names ++ before.filterMap name?))) [] l

theorem constantViolations_eq_nil_iff {α : Type} {make : α → Reported Constant}
    {name? : α → Option String} {names : List String} {l : List α} :
    constantViolations make name? names l = [] ↔
      (∀ a ∈ l, ∃ c, (make a).result = .ok c) ∧ Fresh names (l.filterMap name?) := by
  rw [constantViolations, inTurn_append_eq_nil_iff, inTurn_const_eq_nil_iff, inTurn_clash_eq_nil_iff]
  simp only [Logged.faults_eq_nil_iff, List.filterMap_nil, List.append_nil]

namespace Onnx

/-! ## Names -/

/-- The names that an operator declares: those of its outputs and its own. -/
def Node.declared (n : Node) : List String :=
  n.outputs ++ [n.name]

/-- The operators of type `Constant`. -/
def Graph.constantNodes (g : Graph) : List Node :=
  g.nodes.filter fun n => n.isConstant

/-- The operators of all other types. -/
def Graph.operators (g : Graph) : List Node :=
  g.nodes.filter fun n => !n.isConstant

/-- The names of the constants of a graph. -/
def Graph.constantNames (g : Graph) : List String :=
  g.initializers.map (·.name) ++ g.constantNodes.filterMap fun n => n.outputs.head?

/-- The names of the nodes that a graph is built into, in order. -/
def Graph.names (g : Graph) : List String :=
  g.constantNames ++ (g.inputs.filter fun i => !g.constantNames.contains i).eraseDups
    ++ g.operators.flatMap Node.declared

/-- The constants of a graph that can be made. -/
def Graph.constants (g : Graph) : List Constant :=
  (g.initializers.map Tensor.toConstant ++ g.constantNodes.map Node.toConstant).filterMap fun c =>
    c.result.toOption

/-- The constants that the operators of a graph may refer to. -/
def Graph.constantTable (g : Graph) : ConstantTable :=
  .ofList g.constants

/-! ## Validity -/

structure Graph.Valid (g : Graph) : Prop where
  initializers : ∀ t ∈ g.initializers, ∃ c, t.toConstant.result = .ok c
  constants : ∀ n ∈ g.constantNodes, ∃ c, n.toConstant.result = .ok c
  constantNames : g.constantNames.Nodup
  names : (g.operators.flatMap Node.declared).Nodup
  newNames : ∀ name ∈ g.operators.flatMap Node.declared, name ∉ g.constantNames ∧ name ∉ g.inputs
  inputs : ∀ before n after, g.operators = before ++ n :: after → ∀ i ∈ n.inputs,
    i ∈ g.constantNames ∨ i ∈ g.inputs ∨ i ∈ before.flatMap Node.declared ∨ i ∈ n.outputs
  rules : ∀ n ∈ g.operators, ∃ t ∈ OpType.all, t.name = n.opType ∧
    ∃ a, (t.rule n g.constantTable).result = .ok a
  outputs : ∀ o ∈ g.outputs,
    o ∈ g.constantNames ∨ o ∈ g.inputs ∨ o ∈ g.operators.flatMap Node.declared

/-! ## Violations -/

/-- What is wrong with the type and the attributes of an operator. -/
def Node.ruleViolations (n : Node) (constants : ConstantTable) : List Failure :=
  match OpType.ofName? n.opType with
  | none => [.unsupportedOperator n.name n.opType]
  | some t => (t.rule n constants).faults

/-- What is wrong with an operator, given the names in front of it: its outputs are looked at first, then
its inputs, its type and attributes, and its own name last. -/
def Node.violations (n : Node) (constants : ConstantTable) (names : List String) : List Failure :=
  inTurn (fun before o => clash (names ++ before) o) [] n.outputs
    ++ ((n.inputs.filter fun i => !(names ++ n.outputs).contains i).map (.unknownInput n.name)
      ++ n.ruleViolations constants ++ clash (names ++ n.outputs) n.name)

/-- What is wrong with a graph: first with its initializers, then with its operators of type `Constant`,
with its other operators and with its outputs. -/
def Graph.violations (g : Graph) : List Failure :=
  constantViolations Tensor.toConstant (fun t => some t.name) [] g.initializers
    ++ (constantViolations Node.toConstant (fun n => n.outputs.head?) (g.initializers.map (·.name))
        g.constantNodes
      ++ (inTurn (fun before n => n.violations g.constantTable
          (g.constantNames ++ g.inputs ++ before.flatMap Node.declared)) [] g.operators
        ++ (g.outputs.filter fun o => !(g.constantNames ++ g.inputs
          ++ g.operators.flatMap Node.declared).contains o).map .unknownGraphOutput))

/-! ## Validity is the absence of violations -/

theorem Node.ruleViolations_eq_nil_iff {n : Node} {constants : ConstantTable} :
    n.ruleViolations constants = [] ↔ ∃ t ∈ OpType.all, t.name = n.opType ∧
      ∃ a, (t.rule n constants).result = .ok a := by
  rw [ruleViolations]
  cases h : OpType.ofName? n.opType with
  | none =>
    refine iff_of_false (List.cons_ne_nil _ _) ?_
    rintro ⟨t, -, ht, -⟩
    rw [← ht, OpType.ofName?_name] at h
    cases h
  | some t =>
    rw [Logged.faults_eq_nil_iff]
    constructor
    · exact fun ha => ⟨t, OpType.mem_all t, OpType.name_of_ofName?_eq_some h, ha⟩
    · rintro ⟨t', -, ht', ha⟩
      rw [← ht', OpType.ofName?_name] at h
      cases h
      exact ha

theorem filter_not_contains_eq_nil_iff {names l : List String} :
    (l.filter fun x => !names.contains x) = [] ↔ ∀ x ∈ l, x ∈ names := by
  simp [List.filter_eq_nil_iff]

theorem Node.violations_eq_nil_iff {n : Node} {constants : ConstantTable} {names : List String} :
    n.violations constants names = [] ↔ Fresh names n.declared ∧
      (∀ i ∈ n.inputs, i ∈ names ++ n.outputs) ∧ n.ruleViolations constants = [] := by
  have houtputs : inTurn (fun before o => clash (names ++ before) o) [] n.outputs = [] ↔
      Fresh names n.outputs := by
    simpa using inTurn_clash_eq_nil_iff some names [] n.outputs
  simp only [violations, List.append_eq_nil_iff, houtputs, List.map_eq_nil_iff,
    filter_not_contains_eq_nil_iff, clash_eq_nil_iff, declared, fresh_append, fresh_singleton]
  tauto

/-- The declared names of all operators are fresh if those of each one are fresh behind the others. -/
theorem fresh_flatMap_declared_iff (names : List String) (earlier l : List Node) :
    Fresh (names ++ earlier.flatMap Node.declared) (l.flatMap Node.declared) ↔
      ∀ before n after, l = before ++ n :: after →
        Fresh (names ++ (earlier ++ before).flatMap Node.declared) n.declared := by
  induction l generalizing earlier with
  | nil => exact iff_of_true (fresh_nil _) (by simp)
  | cons m l ih =>
    rw [List.flatMap_cons, fresh_append]
    have hrest := ih (earlier ++ [m])
    simp only [List.flatMap_append, List.flatMap_singleton, ← List.append_assoc] at hrest ⊢
    rw [hrest]
    constructor
    · rintro ⟨hm, hl⟩ before n after heq
      cases before with
      | nil =>
        cases heq
        simpa using hm
      | cons b before =>
        cases heq
        simpa using hl before n after rfl
    · intro h
      refine ⟨by simpa using h [] m l rfl, fun before n after heq => ?_⟩
      simpa using h (m :: before) n after (by rw [heq, List.cons_append])

theorem Graph.operatorViolations_eq_nil_iff {g : Graph} :
    inTurn (fun before n => n.violations g.constantTable
        (g.constantNames ++ g.inputs ++ before.flatMap Node.declared)) [] g.operators = [] ↔
      Fresh (g.constantNames ++ g.inputs) (g.operators.flatMap Node.declared) ∧
        (∀ before n after, g.operators = before ++ n :: after → ∀ i ∈ n.inputs,
          i ∈ g.constantNames ∨ i ∈ g.inputs ∨ i ∈ before.flatMap Node.declared ∨ i ∈ n.outputs) ∧
        ∀ n ∈ g.operators, n.ruleViolations g.constantTable = [] := by
  have hfresh := fresh_flatMap_declared_iff (g.constantNames ++ g.inputs) [] g.operators
  simp only [List.flatMap_nil, List.append_nil, List.nil_append] at hfresh
  rw [inTurn_eq_nil_iff, hfresh]
  simp only [List.nil_append, Node.violations_eq_nil_iff, List.mem_append, or_assoc]
  constructor
  · intro h
    refine ⟨fun b n a hl => (h b n a hl).1, fun b n a hl => (h b n a hl).2.1, fun n hn => ?_⟩
    obtain ⟨before, after, hl⟩ := List.append_of_mem hn
    exact (h before n after hl).2.2
  · rintro ⟨hnames, hinputs, hrules⟩ before n after hl
    exact ⟨hnames before n after hl, hinputs before n after hl, hrules n (by simp [hl])⟩

theorem Graph.valid_iff {g : Graph} : g.Valid ↔ g.violations = [] := by
  have hconstants : Fresh [] g.constantNames ↔ Fresh [] (g.initializers.map (·.name)) ∧
      Fresh (g.initializers.map (·.name)) (g.constantNodes.filterMap fun n => n.outputs.head?) := by
    rw [constantNames, fresh_append, List.nil_append]
  have hnodup : g.constantNames.Nodup ↔ Fresh [] g.constantNames := by
    simp [Fresh]
  have hinits : g.initializers.filterMap (fun t => some t.name) = g.initializers.map (·.name) :=
    congrFun List.filterMap_eq_map' _
  rw [violations, List.append_eq_nil_iff, List.append_eq_nil_iff, List.append_eq_nil_iff,
    constantViolations_eq_nil_iff, constantViolations_eq_nil_iff, hinits,
    operatorViolations_eq_nil_iff, List.map_eq_nil_iff, filter_not_contains_eq_nil_iff]
  simp only [Node.ruleViolations_eq_nil_iff, List.mem_append, or_assoc]
  constructor
  · intro h
    have hnames := hconstants.mp (hnodup.mp h.constantNames)
    refine ⟨⟨h.initializers, hnames.1⟩, ⟨h.constants, hnames.2⟩, ⟨⟨h.names, fun x hx => ?_⟩, h.inputs,
      h.rules⟩, h.outputs⟩
    simpa using h.newNames x hx
  · rintro ⟨⟨hi, hin⟩, ⟨hc, hcn⟩, ⟨⟨hnames, hnew⟩, hinputs, hrules⟩, houtputs⟩
    refine ⟨hi, hc, hnodup.mpr (hconstants.mpr ⟨hin, hcn⟩), hnames, fun x hx => ?_, hinputs, hrules,
      houtputs⟩
    simpa using hnew x hx

end Onnx

end NetPack
