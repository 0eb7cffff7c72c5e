import NetPack.Proofs.Onnx.Attribute
import NetPack.Proofs.Rule.Handled

/-!
# Rules look at nothing else

A rule looks at the first attribute of each name that it knows, and the rule of `Clip` also at two inputs, each
of them only if the attribute that it stands for is missing. So operators that agree in that are read alike, whether
or not the rule gives a result: the names that it asks for, its findings and its result or failure are the same
(`OpType.rule_congr`).
-/

namespace NetPack

/-! ## Operators that agree -/

namespace Onnx.Node

/-- Both operators have the same first attribute of each of the names, or both have none. -/
def SameFirst (names : List String) (n n' : Node) : Prop :=
  ∀ name ∈ names, n.first? name = n'.first? name

/-- Both operators have the same input at a position, or both have none, and the tables have the same constant of
its name. -/
structure SameInput (index : Nat) (n n' : Node) (constants constants' : ConstantTable) : Prop where
  input : n.inputs[index]? = n'.inputs[index]?
  constant : ∀ name, n.inputs[index]? = some name → constants name = constants' name

theorem attribute?_congr {n n' : Node} {name : String} (h : n.first? name = n'.first? name) (k : Kind) :
    n.attribute? k name = n'.attribute? k name := by
  unfold first? at h
  unfold attribute?
  rw [h]

end Onnx.Node

/-! ## Readings -/

section

open Onnx.Node Reading Rule

variable {n n' : Onnx.Node} {name : String} {names : List String}

theorem Reading.optional_congr (h : n.first? name = n'.first? name) (k : Kind) :
    optional n k name = optional n' k name := by
  unfold optional
  rw [attribute?_congr h]

section

variable (h : SameFirst names n n')
include h

theorem Onnx.Node.SameFirst.withDefault (hname : name ∈ names) (k : Kind) (default : k.Value) :
    withDefault n k name default = withDefault n' k name default := by
  unfold Reading.withDefault
  rw [optional_congr (h name hname)]

theorem Onnx.Node.SameFirst.required (hname : name ∈ names) (k : Kind) :
    required n k name = required n' k name := by
  unfold Reading.required
  rw [optional_congr (h name hname)]

theorem Onnx.Node.SameFirst.expect (hname : name ∈ names) (p : PlainKind) (supported : p.kind.Value) :
    expect n p name supported = expect n' p name supported := by
  unfold Reading.expect
  rw [h.withDefault hname]

theorem Onnx.Node.SameFirst.padding (hmode : "auto_pad" ∈ names) (hpads : "pads" ∈ names) :
    padding n = padding n' := by
  unfold Rule.padding
  simp only [h.withDefault hmode, h.withDefault hpads]

theorem Onnx.Node.SameFirst.stride (hstrides : "strides" ∈ names) : stride n = stride n' := by
  unfold Rule.stride
  rw [h.withDefault hstrides]

theorem Onnx.Node.SameFirst.uniformStride (hstrides : "strides" ∈ names) :
    uniformStride n = uniformStride n' := by
  unfold Rule.uniformStride
  rw [h.withDefault hstrides]

theorem Onnx.Node.SameFirst.pool (hkernel : "kernel_shape" ∈ names) (hmode : "auto_pad" ∈ names)
    (hpads : "pads" ∈ names) (hstrides : "strides" ∈ names) : pool n = pool n' := by
  unfold Rule.pool
  simp only [h.required hkernel, h.padding hmode hpads, h.stride hstrides]

end

variable {constants constants' : ConstantTable} {index : Nat}

theorem Reading.scalarInput_congr (h : SameInput index n n' constants constants') (k : Kind) (name : String) :
    scalarInput n constants k name index = scalarInput n' constants' k name index := by
  unfold scalarInput
  rw [← h.input]
  cases hinput : n.inputs[index]? with
  | none => rfl
  | some input =>
    dsimp only
    rw [h.constant input hinput]

/-- The input is looked at only if there is no attribute. -/
theorem Reading.requiredOrInput_congr (h : n.first? name = n'.first? name)
    (hinput : n.first? name = none → SameInput index n n' constants constants') (k : Kind) :
    requiredOrInput n constants k name index = requiredOrInput n' constants' k name index := by
  unfold requiredOrInput
  rw [← optional_congr h]
  have hresult := result_optional n k name
  cases hread : n.attribute? k name with
  | error e =>
    rw [hread] at hresult
    rw [Logged.bind_of_error _ hresult, Logged.bind_of_error _ hresult]
  | ok v? =>
    rw [hread] at hresult
    rw [Logged.bind_of_ok _ hresult, Logged.bind_of_ok _ hresult]
    cases v? with
    | some v => rfl
    | none => rw [scalarInput_congr (hinput (attribute?_eq_none_iff.mp hread))]

end

/-! ## Rules -/

open Onnx.Node Reading Rule in
/-- Two operators that have the same first attribute of each name that a rule knows are read alike: the rule asks
for the same names, has the same findings, and gives the same attributes or the same failure. Other attributes, later
ones of the same names, the names of operators, their outputs and inputs, and the constants do not matter, except for
the inputs that take the place of a missing bound. -/
theorem OpType.rule_congr {t : OpType} {n n' : Onnx.Node} {constants constants' : ConstantTable}
    (h : SameFirst t.handled n n')
    (hmin : t = .clip → n.first? "min" = none → SameInput 1 n n' constants constants')
    (hmax : t = .clip → n.first? "max" = none → SameInput 2 n n' constants constants') :
    t.rule n constants = t.rule n' constants' := by
  cases t with
  | clip =>
    have hleast := requiredOrInput_congr (h "min" (by decide)) (hmin rfl) .float
    have hgreatest := requiredOrInput_congr (h "max" (by decide)) (hmax rfl) .float
    simp only [rule, Rule.clip, hleast, hgreatest]
  | averagePool => simp (disch := decide) only [rule, Rule.averagePool, h.pool, h.expect]
  | maxPool => simp (disch := decide) only [rule, Rule.maxPool, h.pool, h.expect]
  | conv =>
    simp (disch := decide) only [rule, Rule.conv, h.withDefault, h.padding, h.uniformStride, h.expect]
  | convTranspose => simp (disch := decide) only [rule, Rule.convTranspose, h.uniformStride, h.expect]
  | batchNormalization => simp (disch := decide) only [rule, Rule.batchNormalization, h.withDefault]
  | cast => simp (disch := decide) only [rule, Rule.cast, h.withDefault]
  | concat => simp (disch := decide) only [rule, Rule.concat, h.required]
  | constantOfShape => simp (disch := decide) only [rule, Rule.constantOfShape, h.required]
  | gather => simp (disch := decide) only [rule, Rule.gather, h.withDefault]
  | gemm => simp (disch := decide) only [rule, Rule.gemm, h.withDefault]
  | leakyRelu => simp (disch := decide) only [rule, Rule.leakyRelu, h.withDefault]
  | pad => simp (disch := decide) only [rule, Rule.pad, h.expect]
  | reduceMean =>
    have haxes := optional_congr (h "axes" (by decide)) .ints
    simp (disch := decide) only [rule, Rule.reduceMean, haxes, h.withDefault, h.expect]
  | reshape => simp (disch := decide) only [rule, Rule.reshape, h.expect]
  | resize => simp (disch := decide) only [rule, Rule.resize, h.withDefault, h.expect]
  | shape => simp (disch := decide) only [rule, Rule.shape, h.expect]
  | softmax => simp (disch := decide) only [rule, Rule.softmax, h.withDefault]
  | split => simp (disch := decide) only [rule, Rule.split, h.withDefault, h.expect]
  | squeeze => simp (disch := decide) only [rule, Rule.squeeze, h.withDefault]
  | transpose => simp (disch := decide) only [rule, Rule.transpose, h.withDefault]
  | unsqueeze => simp (disch := decide) only [rule, Rule.unsqueeze, h.withDefault]
  | add | cos | div | equal | erf | expand | globalAveragePool | identity | less | matMul | mul | pow
  | range | relu | sigmoid | sin | slice | sqrt | sub | where_ => rfl

/-- An operator with a lower bound of its own; only the upper one is read from an input. -/
def boundedClip : Onnx.Node where
  name := "clip"
  inputs := ["x", "least", "greatest"]
  attributes := [{ name := "min", type := 1, float := .one }]

/-- Another operator with the same bounds, behind an attribute that no rule knows and in front of a second lower
bound, which is mistyped. -/
def disguisedClip : Onnx.Node where
  name := "limit"
  inputs := ["y", "unknown", "greatest"]
  outputs := ["z"]
  attributes := [{ name := "note", type := 3 }, { name := "min", type := 1, float := .one }, { name := "min" }]

theorem rule_boundedClip :
    let least : Constant := ⟨"least", [1], .int [0], rfl⟩
    let greatest : Constant := ⟨"greatest", [], .int [6], rfl⟩
    OpType.clip.rule boundedClip (.ofList [least, greatest]) = OpType.clip.rule disguisedClip (.ofList [greatest]) ∧
      (OpType.clip.rule disguisedClip (.ofList [greatest])).result = .ok (.clip .one ⟨0x40c00000⟩) := by
  intro least greatest
  refine ⟨OpType.rule_congr ?_ ?_ ?_, ?_⟩
  · unfold Onnx.Node.SameFirst
    decide
  · intro _ hmin
    cases hmin
  · intro _ _
    refine ⟨rfl, fun name hname => ?_⟩
    cases hname
    rfl
  · rfl

end NetPack
