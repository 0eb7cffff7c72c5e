import NetPack.Proofs.Onnx.Constant
import NetPack.Rule.Operators

/-!
# What the rules look at

A rule that gives a result has asked for a fixed list of attributes (`OpType.handled`), of which it leaves out
`pads` if the size of the output decides the padding (`Onnx.Node.handled`). Its only findings are those in the
value of an operator of type `ConstantOfShape` (`Onnx.Node.valueClampings`), of which there is at most one.
-/

namespace NetPack

/-! ## Names -/

/-- The names of the attributes that the rule of an operator type knows, in the order in which it asks for
them. -/
def OpType.handled : OpType → List String
  | .averagePool =>
    ["kernel_shape", "auto_pad", "pads", "strides", "ceil_mode", "count_include_pad"]
  | .batchNormalization => ["epsilon"]
  | .cast => ["to"]
  | .clip => ["min", "max"]
  | .concat | .gather | .softmax => ["axis"]
  | .constantOfShape => ["value"]
  | .conv => ["group", "auto_pad", "pads", "strides", "dilations", "kernel_shape"]
  | .convTranspose =>
    ["strides", "auto_pad", "dilations", "group", "kernel_shape", "output_padding", "pads"]
  | .gemm => ["alpha", "beta", "transA", "transB"]
  | .leakyRelu => ["alpha"]
  | .maxPool =>
    ["kernel_shape", "auto_pad", "pads", "strides", "ceil_mode", "dilations", "storage_order"]
  | .pad => ["mode"]
  | .reduceMean => ["axes", "keepdims", "noop_with_empty_axes"]
  | .reshape => ["allowzero"]
  | .resize => ["mode", "antialias", "axes", "coordinate_transformation_mode", "cubic_coeff_a",
      "exclude_outside", "extrapolation_value", "keep_aspect_ratio_policy", "nearest_mode"]
  | .shape => ["end", "start"]
  | .split => ["axis", "split", "num_outputs"]
  | .squeeze | .unsqueeze => ["axes"]
  | .transpose => ["perm"]
  | .add | .cos | .div | .equal | .erf | .expand | .globalAveragePool | .identity | .less | .matMul
  | .mul | .pow | .range | .relu | .sigmoid | .sin | .slice | .sqrt | .sub | .where_ => []

/-- The operator types whose padding may be left to the size of the output. -/
def OpType.isPadded : OpType → Bool
  | .averagePool | .conv | .maxPool => true
  | _ => false

namespace Onnx.Node

/-- The operator asks for the padding that keeps the size. -/
def keepsSize (n : Node) : Bool :=
  match n.attribute? .string "auto_pad" with
  | .ok (some mode) => mode == "SAME_UPPER" || mode == "SAME_LOWER"
  | _ => false

/-- The names of the attributes that a rule asks for on an operator. -/
def handled (n : Node) (t : OpType) : List String :=
  if t.isPadded && n.keepsSize then t.handled.erase "pads" else t.handled

/-- The findings in the value of an operator of type `ConstantOfShape`. -/
def valueClampings (n : Node) (t : OpType) : List Diagnostic :=
  match t, n.attribute? .tensor "value" with
  | .constantOfShape, .ok (some v) => clampings v.name v.integers
  | _, _ => []

end Onnx.Node

/-! ## Readings -/

namespace Reading

variable (n : Onnx.Node)

theorem result_optional (k : Kind) (name : String) :
    (optional n k name).result = n.attribute? k name :=
  rfl

theorem attribute?_of_required {k : Kind} {name : String} {v : k.Value}
    (h : (required n k name).result = .ok v) : n.attribute? k name = .ok (some v) := by
  obtain ⟨v?, hv, hsome⟩ := Logged.result_bind_eq_ok_iff.mp h
  rw [result_optional] at hv
  cases v? with
  | none => cases hsome
  | some w =>
    cases hsome
    exact hv

/-- The name is noted before anything is done with the attribute. -/
theorem log_optional_bind {α : Type} {k : Kind} {name : String} {f : Option k.Value → Reading α}
    (hf : ∀ v, (f v).log = []) : (optional n k name >>= f).log = [.lookedAt name] := by
  have hresult := result_optional n k name
  cases hread : n.attribute? k name with
  | error e => exact Logged.log_bind_of_error f (hresult.trans hread)
  | ok v =>
    rw [Logged.log_bind_of_ok f (hresult.trans hread), hf v]
    rfl

theorem log_required (k : Kind) (name : String) : (required n k name).log = [.lookedAt name] := by
  refine log_optional_bind n fun v => ?_
  cases v with
  | none => rfl
  | some v => rfl

end Reading

/-! ## Findings -/

namespace Rule

open Reading

theorem length_of_singleElement {name : String} {c : Constant} {s : Scalar}
    (h : singleElement name c = .ok s) : c.elements.length = 1 := by
  unfold singleElement at h
  split at h
  · rename_i hlength _
    exact hlength
  · cases h

theorem value_of_constantOfShape {n : Onnx.Node} {constants : ConstantTable} {a : Attrs}
    (h : (constantOfShape n constants).result = .ok a) : ∃ tensor c s,
      (required n .tensor "value").result = .ok tensor ∧
      (reported (Onnx.Tensor.toConstant tensor)).result = .ok c ∧
      (.ofExcept (singleElement "value" c) : Reading Scalar).result = .ok s ∧
      n.valueClampings .constantOfShape = clampings tensor.name tensor.integers := by
  obtain ⟨tensor, htensor, h₁⟩ := Logged.result_bind_eq_ok_iff.mp h
  obtain ⟨c, hc, h₂⟩ := Logged.result_bind_eq_ok_iff.mp h₁
  obtain ⟨s, hs, -⟩ := Logged.result_bind_eq_ok_iff.mp h₂
  refine ⟨tensor, c, s, htensor, hc, hs, ?_⟩
  unfold Onnx.Node.valueClampings
  rw [attribute?_of_required n htensor]

theorem log_constantOfShape {n : Onnx.Node} (constants : ConstantTable) {a : Attrs}
    (h : (constantOfShape n constants).result = .ok a) :
    (constantOfShape n constants).log = (n.handled .constantOfShape).map .lookedAt
      ++ (n.valueClampings .constantOfShape).map .found := by
  obtain ⟨tensor, c, s, htensor, hc, hs, hvalue⟩ := value_of_constantOfShape h
  have hlog := (Onnx.Tensor.toConstant_ok (t := tensor) hc).2.1
  unfold constantOfShape
  rw [hvalue, ← hlog, Logged.log_bind_of_ok _ htensor, Logged.log_bind_of_ok _ hc,
    Logged.log_bind_of_ok _ hs, log_required n .tensor "value"]
  exact congrArg (_ ++ ·) (List.append_nil _)

/-- An element that is moved is one of the elements of the constant, which has just one. -/
theorem length_constantOfShape {n : Onnx.Node} (constants : ConstantTable) {a : Attrs}
    (h : (constantOfShape n constants).result = .ok a) :
    (n.valueClampings .constantOfShape).length ≤ 1 := by
  obtain ⟨tensor, c, s, -, hc, hs, hvalue⟩ := value_of_constantOfShape h
  have hone := length_of_singleElement hs
  have hlength := (Onnx.Tensor.toConstant_ok (t := tensor) hc).2.2
  rw [hvalue, clampings, List.length_map]
  exact Nat.le_trans (List.length_filter_le _ _) (hone ▸ hlength)

end Rule

theorem Onnx.Node.valueClampings_of_ne {n : Onnx.Node} {t : OpType} (h : t ≠ .constantOfShape) :
    n.valueClampings t = [] := by
  unfold valueClampings
  split
  · exact absurd rfl h
  · rfl

theorem OpType.length_valueClampings_le {n : Onnx.Node} {constants : ConstantTable} {t : OpType}
    {a : Attrs} (h : (t.rule n constants).result = .ok a) : (n.valueClampings t).length ≤ 1 := by
  by_cases ht : t = .constantOfShape
  · subst ht
    exact Rule.length_constantOfShape constants h
  · rw [Onnx.Node.valueClampings_of_ne ht]
    exact Nat.zero_le 1

end NetPack
