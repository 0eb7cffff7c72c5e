import NetPack.Proofs.Onnx.Attribute
import NetPack.Proofs.Onnx.Consistent
import NetPack.Proofs.Rule.Handled
import NetPack.Proofs.Single.Nearest

/-!
# What rules ask of attributes

A rule asks something of each attribute that it knows, on its own: `OpType.conditions` has one condition for
every name that the rule looks at (`OpType.names_conditions`), on the first attribute of that name or on there
being none. The conditions stand in the order of the reading, which goes as far as the first one that is not met
(`Condition.Reached`). What the rule then says is a relation between the attributes of the operator and those in packed form
(`OpType.Carries`): the numbers are the same, in the narrower types.
-/

namespace NetPack

/-! ## Conditions -/

/-- What is asked of the first attribute of a name, or of there being none. -/
structure Condition where
  name : String
  admits : Option Onnx.Attribute → Prop

namespace Condition

def Met (c : Condition) (n : Onnx.Node) : Prop :=
  c.admits (n.first? c.name)

/-- The attribute has the declared type of a kind and a value that is supported. -/
def ofKind (name : String) (k : Kind) (absent : Prop) (supported : k.Value → Prop) : Condition where
  name := name
  admits
    | none => absent
    | some a => ∃ v, a.value? = some ⟨k, v⟩ ∧ supported v

def optional (name : String) (k : Kind) (supported : k.Value → Prop) : Condition :=
  ofKind name k True supported

def required (name : String) (k : Kind) (supported : k.Value → Prop) : Condition :=
  ofKind name k False supported

/-- Only one value is supported. Floats are compared as numbers. -/
def expected (p : PlainKind) (name : String) (value : p.kind.Value) : Condition :=
  optional name p.kind fun v => p.same v value

/-- The attribute is passed over, whatever it is. -/
def ignored (name : String) : Condition where
  name := name
  admits _ := True

theorem met_ofKind_iff {n : Onnx.Node} {name : String} {k : Kind} {absent : Prop}
    {supported : k.Value → Prop} : (ofKind name k absent supported).Met n ↔
      (n.attribute? k name = .ok none ∧ absent) ∨
        ∃ v, n.attribute? k name = .ok (some v) ∧ supported v := by
  have hmet : (ofKind name k absent supported).Met n ↔
      (ofKind name k absent supported).admits (n.first? name) := Iff.rfl
  rw [hmet, Onnx.Node.attribute?_eq_none_iff]
  simp only [Onnx.Node.attribute?_eq_some_iff]
  cases hfirst : n.first? name with
  | none =>
    constructor
    · intro h
      exact .inl ⟨rfl, h⟩
    · rintro (⟨-, h⟩ | ⟨v, ⟨a, ha, -⟩, -⟩)
      · exact h
      · cases ha
  | some a =>
    constructor
    · rintro ⟨v, hv, hsupported⟩
      exact .inr ⟨v, ⟨a, rfl, hv⟩, hsupported⟩
    · rintro (⟨hnone, -⟩ | ⟨v, ⟨a', ⟨⟩, hv⟩, hsupported⟩)
      · cases hnone
      · exact ⟨v, hv, hsupported⟩

/-! ## In order -/

/-- The names of conditions up to the first one that is not met, with it. -/
inductive Reached (n : Onnx.Node) : List Condition → List String → Prop
  | nil : Reached n [] []
  | unmet {c : Condition} (cs : List Condition) (h : ¬c.Met n) : Reached n (c :: cs) [c.name]
  | met {c : Condition} {cs : List Condition} {names : List String} (h : c.Met n)
    (rest : Reached n cs names) : Reached n (c :: cs) (c.name :: names)

section

variable {n : Onnx.Node} {cs cs' : List Condition} {names names' : List String}

theorem reached_singleton (n : Onnx.Node) (c : Condition) : Reached n [c] [c.name] := by
  by_cases h : c.Met n
  · exact .met h .nil
  · exact .unmet [] h

theorem Reached.append (h : Reached n cs names) (hmet : ∀ c ∈ cs, c.Met n) (h' : Reached n cs' names') :
    Reached n (cs ++ cs') (names ++ names') := by
  induction h with
  | nil => exact h'
  | unmet cs hc => exact absurd (hmet _ List.mem_cons_self) hc
  | met hc _ ih => exact .met hc (ih fun c hc => hmet c (List.mem_cons_of_mem _ hc))

/-- What comes after a condition that is not met is not reached. -/
theorem Reached.append_of_not_met (h : Reached n cs names) (hmet : ¬∀ c ∈ cs, c.Met n)
    (cs' : List Condition) : Reached n (cs ++ cs') names := by
  induction h with
  | nil => exact absurd (fun c hc => nomatch hc) hmet
  | unmet cs hc => exact .unmet (cs ++ cs') hc
  | met hc _ ih => exact .met hc (ih fun hrest => hmet (List.forall_mem_cons.mpr ⟨hc, hrest⟩))

theorem Reached.eq_map (h : Reached n cs names) (hmet : ∀ c ∈ cs, c.Met n) : names = cs.map (·.name) := by
  induction h with
  | nil => rfl
  | unmet cs hc => exact absurd (hmet _ List.mem_cons_self) hc
  | met hc _ ih => rw [ih fun c hc => hmet c (List.mem_cons_of_mem _ hc), List.map_cons]

/-- A name is reached if all conditions before one of that name are met. -/
theorem Reached.mem_iff (h : Reached n cs names) (name : String) : name ∈ names ↔
    ∃ before c after, cs = before ++ c :: after ∧ c.name = name ∧ ∀ b ∈ before, b.Met n := by
  induction h with
  | nil => simp
  | @unmet c cs hc =>
    rw [List.mem_singleton]
    constructor
    · rintro rfl
      exact ⟨[], c, cs, rfl, rfl, fun b hb => nomatch hb⟩
    · rintro ⟨before, d, after, hcs, rfl, hbefore⟩
      cases before with
      | nil => exact congrArg Condition.name (List.cons.inj hcs).1.symm
      | cons b before => exact absurd ((List.cons.inj hcs).1 ▸ hbefore b List.mem_cons_self) hc
  | @met c cs names hc _ ih =>
    rw [List.mem_cons, ih]
    constructor
    · rintro (rfl | ⟨before, d, after, rfl, rfl, hbefore⟩)
      · exact ⟨[], c, cs, rfl, rfl, fun b hb => nomatch hb⟩
      · exact ⟨c :: before, d, after, rfl, rfl, List.forall_mem_cons.mpr ⟨hc, hbefore⟩⟩
    · rintro ⟨before, d, after, hcs, rfl, hbefore⟩
      cases before with
      | nil => exact .inl (congrArg Condition.name (List.cons.inj hcs).1.symm)
      | cons b before =>
        have hrest : ∀ e ∈ before, e.Met n := fun e he => hbefore e (List.mem_cons_of_mem _ he)
        exact .inr ⟨before, d, after, (List.cons.inj hcs).2, rfl, hrest⟩

end

/-! ## Parts of rules -/

/-- So many values, each of which is an unsigned 32-bit integer. -/
def Sizes (count : Nat) (vs : List Int64) : Prop :=
  vs.length = count ∧ ∀ v ∈ vs, FitsUnsigned v

theorem sizes_replicate {v : Int64} (h : FitsUnsigned v) (count : Nat) :
    Sizes count (List.replicate count v) :=
  ⟨List.length_replicate, fun _ hw => List.eq_of_mem_replicate hw ▸ h⟩

/-- The element types that a cast may go to. -/
def IsCastTarget (v : Int64) : Prop :=
  ∃ type ∈ [Onnx.ElementType.float, .bool, .int32, .int64], v.toInt = type.number

/-- The padding is looked at only if the output does not keep the size. -/
def padding (n : Onnx.Node) : List Condition :=
  optional "auto_pad" .string (· ∈ ["NOTSET", "SAME_UPPER", "SAME_LOWER"]) ::
    if n.keepsSize then [] else [optional "pads" .ints (Sizes 4)]

def stride : Condition :=
  optional "strides" .ints (Sizes 2)

/-- Both strides are the same. -/
def uniformStride : Condition :=
  optional "strides" .ints fun vs => ∃ v, vs = [v, v] ∧ FitsUnsigned v

def pool (n : Onnx.Node) : List Condition :=
  required "kernel_shape" .ints (Sizes 2) :: padding n ++ [stride]

/-- A float or, if there is no attribute, an input that is a constant without dimensions. -/
def bound (n : Onnx.Node) (constants : ConstantTable) (name : String) (index : Nat) : Condition :=
  ofKind name .float
    (∃ input c, n.inputs[index]? = some input ∧ constants input = some c ∧ c.shape = []) fun _ => True

/-- A tensor that makes a constant with one element. -/
def HasOneElement (t : Onnx.Tensor) : Prop :=
  ∃ c, t.toConstant.result = .ok c ∧ c.elements.length = 1

end Condition

open Condition in
/-- What the rule of an operator type asks of the attributes of an operator, each on its own. -/
def OpType.conditions (n : Onnx.Node) (constants : ConstantTable) : OpType → List Condition
  | .averagePool => Condition.pool n ++ [expected .int "ceil_mode" 0, expected .int "count_include_pad" 0]
  | .batchNormalization => [optional "epsilon" .float fun _ => True]
  | .cast => [optional "to" .int IsCastTarget]
  | .clip => [bound n constants "min" 1, bound n constants "max" 2]
  | .concat => [required "axis" .int FitsSigned]
  | .constantOfShape => [required "value" .tensor HasOneElement]
  | .conv => optional "group" .int FitsUnsigned ::
      Condition.padding n ++ [uniformStride, expected .ints "dilations" [1, 1], ignored "kernel_shape"]
  | .convTranspose => [uniformStride, expected .string "auto_pad" "NOTSET",
      expected .ints "dilations" [1, 1], expected .int "group" 1, ignored "kernel_shape",
      expected .ints "output_padding" [0, 0, 0, 0], expected .ints "pads" [0, 0, 0, 0]]
  | .gather | .softmax => [optional "axis" .int FitsSigned]
  | .gemm => [optional "alpha" .float fun _ => True, optional "beta" .float fun _ => True,
      optional "transA" .int fun _ => True, optional "transB" .int fun _ => True]
  | .leakyRelu => [optional "alpha" .float fun _ => True]
  | .maxPool => Condition.pool n ++
      [expected .int "ceil_mode" 0, expected .ints "dilations" [1, 1], expected .int "storage_order" 0]
  | .pad => [expected .string "mode" "constant"]
  | .reduceMean => [optional "axes" .ints fun vs => ∀ v ∈ vs, FitsSigned v,
      optional "keepdims" .int fun _ => True, expected .int "noop_with_empty_axes" 0]
  | .reshape => [expected .int "allowzero" 0]
  | .resize => [optional "mode" .string (· ∈ ["nearest", "linear"]), expected .int "antialias" 0,
      expected .ints "axes" [2, 3], expected .string "coordinate_transformation_mode" "half_pixel",
      expected .float "cubic_coeff_a" ⟨0xbf400000⟩, expected .int "exclude_outside" 0,
      expected .float "extrapolation_value" .zero, expected .string "keep_aspect_ratio_policy" "stretch",
      expected .string "nearest_mode" "prefer_round_floor"]
  | .shape => [expected .int "end" 0, expected .int "start" 0]
  | .split => [optional "axis" .int FitsSigned, optional "split" .ints fun vs => ∀ v ∈ vs, FitsUnsigned v,
      expected .int "num_outputs" 0]
  | .squeeze | .unsqueeze => [optional "axes" .ints fun vs => ∀ v ∈ vs, FitsSigned v]
  | .transpose => [optional "perm" .ints fun vs => ∀ v ∈ vs, FitsUnsigned v]
  | .add | .cos | .div | .equal | .erf | .expand | .globalAveragePool | .identity | .less | .matMul
  | .mul | .pow | .range | .relu | .sigmoid | .sin | .slice | .sqrt | .sub | .where_ => []

/-- There is one condition for every name that the rule looks at. -/
theorem OpType.names_conditions (n : Onnx.Node) (constants : ConstantTable) (t : OpType) :
    (t.conditions n constants).map (·.name) = n.handled t := by
  unfold Onnx.Node.handled
  cases t with
  | averagePool | conv | maxPool =>
    unfold conditions
    cases hkeeps : n.keepsSize <;> simp [Condition.pool, Condition.padding, hkeeps] <;> rfl
  | _ => rfl

/-! ## What is carried over -/

/-- Unsigned integers with these values, in order. -/
def SameSizes (vs : List Int64) (ns : List UInt32) : Prop :=
  vs.map Int64.toInt = ns.map fun n => (n.toNat : Int)

/-- Signed integers with these values, in order. -/
def SameAxes (vs : List Int64) (axes : List Int32) : Prop :=
  vs.map Int64.toInt = axes.map Int32.toInt

namespace Onnx.Node

/-- The amounts of padding are those of the attribute, which gives the right one before the bottom one. -/
def CarriesPadding (n : Node) : Padding → Prop
  | .same => n.keepsSize
  | .fixed top left bottom right =>
    ¬n.keepsSize ∧ SameSizes (n.valueD .ints "pads" [0, 0, 0, 0]) [top, left, right, bottom]

structure CarriesPool (n : Node) (p : PoolAttrs) : Prop where
  kernel : SameSizes (n.valueD .ints "kernel_shape" []) [p.kernelHeight, p.kernelWidth]
  padding : n.CarriesPadding p.padding
  stride : SameSizes (n.valueD .ints "strides" [1, 1]) [p.strideHeight, p.strideWidth]

/-- A bound is the value of the attribute or the element of the input; an integer becomes the number nearest to
it. -/
def CarriesBound (n : Node) (constants : ConstantTable) (name : String) (index : Nat)
    (bound : Single) : Prop :=
  n.value? .float name = some bound ∨
  n.first? name = none ∧ ∃ input c s, n.inputs[index]? = some input ∧ constants input = some c ∧
    c.elements.scalars = [s] ∧ match s with
      | .float v => bound = v
      | .int v => bound.IsNearest v.toInt

/-- The value is the one element of the tensor, as constants have it. -/
def CarriesElement (n : Node) (value : Scalar) : Prop :=
  ∃ t l, n.value? .tensor "value" = some t ∧ t.layout? = some l ∧ t.scalars l = [value]

end Onnx.Node

/-- The attributes in packed form are those of the type of the operator, and their numbers are those of the
operator or the defaults. -/
def OpType.Carries (n : Onnx.Node) (constants : ConstantTable) : OpType → Attrs → Prop
  | .averagePool, .averagePool p => n.CarriesPool p
  | .batchNormalization, .batchNormalization epsilon => epsilon = n.valueD .float "epsilon" ⟨0x3727c5ac⟩
  | .cast, .cast target => target = .float ↔ n.valueD .int "to" 1 = 1
  | .clip, .clip min max =>
    n.CarriesBound constants "min" 1 min ∧ n.CarriesBound constants "max" 2 max
  | .concat, .concat dim => dim.toInt = (n.valueD .int "axis" 0).toInt
  | .constantOfShape, .constantOfShape value => n.CarriesElement value
  | .conv, .conv groups padding stride => (groups.toNat : Int) = (n.valueD .int "group" 1).toInt ∧
      n.CarriesPadding padding ∧ SameSizes (n.valueD .ints "strides" [1, 1]) [stride, stride]
  | .convTranspose, .convTranspose stride => SameSizes (n.valueD .ints "strides" [1, 1]) [stride, stride]
  | .gather, .gather axis => axis.toInt = (n.valueD .int "axis" 0).toInt
  | .gemm, .gemm alpha beta transposeA transposeB =>
    alpha = n.valueD .float "alpha" .one ∧ beta = n.valueD .float "beta" .one ∧
      transposeA = (n.valueD .int "transA" 0 != 0) ∧ transposeB = (n.valueD .int "transB" 0 != 0)
  | .leakyRelu, .leakyRelu alpha => alpha = n.valueD .float "alpha" ⟨0x3c23d70a⟩
  | .maxPool, .maxPool p => n.CarriesPool p
  | .reduceMean, .reduceMean axes keepDims =>
    Option.Rel SameAxes (n.value? .ints "axes") axes ∧ keepDims = (n.valueD .int "keepdims" 1 != 0)
  | .resize, .resize mode => mode = .nearest ↔ n.valueD .string "mode" "nearest" = "nearest"
  | .softmax, .softmax axis => axis.toInt = (n.valueD .int "axis" 0).toInt
  | .split, .split axis parts =>
    axis.toInt = (n.valueD .int "axis" 0).toInt ∧ SameSizes (n.valueD .ints "split" []) parts
  | .squeeze, .squeeze axes => SameAxes (n.valueD .ints "axes" []) axes
  | .transpose, .transpose perm => SameSizes (n.valueD .ints "perm" []) perm
  | .unsqueeze, .unsqueeze axes => SameAxes (n.valueD .ints "axes" []) axes
  | .pad, .none | .reshape, .none | .shape, .none | .add, .none | .cos, .none | .div, .none | .equal, .none
  | .erf, .none | .expand, .none | .globalAveragePool, .none | .identity, .none | .less, .none
  | .matMul, .none | .mul, .none | .pow, .none | .range, .none | .relu, .none | .sigmoid, .none
  | .sin, .none | .slice, .none | .sqrt, .none | .sub, .none | .where_, .none => True
  | _, _ => False

end NetPack
