import NetPack.Proofs.Narrow
import NetPack.Proofs.Onnx.Attribute
import NetPack.Proofs.Onnx.RawData

/-!
# Forms of constant operators

An operator of type `Constant` gives its value as a tensor, a float, an integer or a list of integers, each in an
attribute of its own. The first of these forms that it has decides alone (`Node.Gives`): the operator makes the
constant of the tensor that has the value in it, or is refused if the attribute is of another type
(`Node.toConstant_form`). The forms behind it and all other attributes do not matter.
-/

namespace NetPack.Onnx

/-- The forms in which an operator of type `Constant` may give its value. -/
inductive ConstantForm
  | tensor | float | int | ints
deriving DecidableEq

namespace ConstantForm

/-- All forms, those that count first in front. -/
def all : List ConstantForm :=
  [tensor, float, int, ints]

/-- The forms that count before this one. -/
def earlier (f : ConstantForm) : List ConstantForm :=
  all.takeWhile (· ≠ f)

/-- The name of the attribute. -/
def name : ConstantForm → String
  | tensor => "value"
  | float => "value_float"
  | int => "value_int"
  | ints => "value_ints"

@[reducible] def kind : ConstantForm → Kind
  | tensor => .tensor
  | float => .float
  | int => .int
  | ints => .ints

/-- The tensor of a value, under the name of the constant: a single number has no dimensions, and a list has one. -/
def toTensor (name : String) : (f : ConstantForm) → f.kind.Value → Tensor
  | tensor, (t : Tensor) => { t with name }
  | float, x => { name, elementType := Int32.ofNat ElementType.float.number, floatData := [x] }
  | int, i => { name, elementType := Int32.ofNat ElementType.int64.number, int64Data := [i] }
  | ints, (vs : List Int64) =>
    { name, dims := [Int64.ofNat vs.length], elementType := Int32.ofNat ElementType.int64.number,
      int64Data := vs }

/-- The number of values is a dimension. -/
def Fits : (f : ConstantForm) → f.kind.Value → Prop
  | ints, (vs : List Int64) => vs.length < 0x100000000
  | _, _ => True

/-- The constant that is made of a value. -/
def make (name : String) : (f : ConstantForm) → f.kind.Value → Reported Constant
  | tensor, t => Tensor.toConstantNamed t name
  | float, x => .ofExcept (Constant.of? name [] (.float [x]))
  | int, i => Node.constantOfInts name [] [i]
  | ints, (vs : List Int64) =>
    if vs.length < 0x100000000 then Node.constantOfInts name [UInt32.ofNat vs.length] vs
    else .fail (.invalidTensorData name (.tooManyValues vs.length))

/-! ## A value and its tensor -/

theorem constantOfInts_eq {name : String} {dims vs : List Int64} {shape : List UInt32}
    (h : ({ dims : Tensor }).shape name = .ok shape) :
    Node.constantOfInts name shape vs = ((Values.int64 vs).typed name dims).toConstant := by
  have hshape : (.ofExcept (.ok shape) : Reported (List UInt32)) = pure shape := rfl
  rw [Values.toConstant_typed, Values.constant, h, hshape, pure_bind]
  unfold Node.constantOfInts
  rw [narrow_eq, Logged.bind_of_ok _ rfl, Logged.bind_of_ok _ rfl]
  rfl

theorem shape_of_length {k : Nat} (h : k < 0x100000000) (name : String) :
    ({ dims := [Int64.ofNat k] : Tensor }).shape name = .ok [UInt32.ofNat k] := by
  have hk : (Int64.ofNat k).toInt = k := Int64.toInt_ofNat_of_lt (by omega)
  have hfits : FitsUnsigned (Int64.ofNat k) := by
    unfold FitsUnsigned
    omega
  unfold Tensor.shape
  rw [List.mapM_cons, unsigned?_of_fits hfits, unsignedOf, hk]
  rfl

/-- A value makes the constant that its tensor makes. -/
theorem make_eq (name : String) (f : ConstantForm) (v : f.kind.Value) (h : f.Fits v) :
    f.make name v = (f.toTensor name v).toConstant := by
  cases f with
  | tensor => rfl
  | float => exact (Values.toConstant_typed name [] (.float [v])).symm
  | int => exact constantOfInts_eq rfl
  | ints =>
    have hfits : List.length v < 0x100000000 := h
    exact (if_pos hfits).trans (constantOfInts_eq (shape_of_length hfits name))

end ConstantForm

/-! ## The form that counts -/

theorem ConstantForm.exists_all_eq (f : ConstantForm) : ∃ later, all = f.earlier ++ f :: later := by
  cases f <;> exact ⟨_, rfl⟩

namespace Node

/-- The constant of the first of some forms that an operator has. -/
def firstForm (n : Node) (name : String) : List ConstantForm → Reported Constant
  | [] => .fail (.missingRequiredAttribute "value")
  | f :: fs => do
    match ← .ofExcept (n.attribute? f.kind f.name) with
    | some v => f.make name v
    | none => firstForm n name fs

/-- An operator gives its value in a form, by an attribute: it has none of the earlier forms, and the attribute is
the first one of its name. -/
structure Gives (n : Node) (f : ConstantForm) (a : Attribute) : Prop where
  earlier : ∀ g ∈ f.earlier, n.first? g.name = none
  first : n.first? f.name = some a

variable {n : Node} {name : String} {f : ConstantForm} {a : Attribute}

theorem toConstant_eq_firstForm (hname : n.outputs.head? = some name) :
    n.toConstant = n.firstForm name ConstantForm.all := by
  have hpure : (.ofOption (.noOutputs n.name) (some name) : Reported String) = pure name := rfl
  unfold toConstant
  rw [hname, hpure, pure_bind]
  -- Both sides ask for the forms in order; they are compared form by form.
  refine congrArg (Logged.ofExcept (n.attribute? .tensor "value") >>= ·) (funext fun tensor? => ?_)
  cases tensor? with
  | some t => rfl
  | none =>
  refine congrArg (Logged.ofExcept (n.attribute? .float "value_float") >>= ·) (funext fun float? => ?_)
  cases float? with
  | some x => rfl
  | none =>
  refine congrArg (Logged.ofExcept (n.attribute? .int "value_int") >>= ·) (funext fun int? => ?_)
  cases int? with
  | some i => rfl
  | none =>
  refine congrArg (Logged.ofExcept (n.attribute? .ints "value_ints") >>= ·) (funext fun ints? => ?_)
  cases ints? with
  | some vs => rfl
  | none => rfl

theorem firstForm_of_none {fs : List ConstantForm} (h : n.first? f.name = none) :
    n.firstForm name (f :: fs) = n.firstForm name fs := by
  rw [firstForm, attribute?_eq_none_iff.mpr h]
  rfl

/-- Forms that an operator does not have are passed over. -/
theorem firstForm_append {before fs : List ConstantForm} (h : ∀ g ∈ before, n.first? g.name = none) :
    n.firstForm name (before ++ fs) = n.firstForm name fs := by
  induction before with
  | nil => rfl
  | cons g before ih =>
    rw [List.cons_append, firstForm_of_none (h g List.mem_cons_self)]
    exact ih fun g' hg' => h g' (List.mem_cons_of_mem g hg')

theorem Gives.toConstant_eq (h : n.Gives f a) (hname : n.outputs.head? = some name) :
    ∃ later, n.toConstant = n.firstForm name (f :: later) := by
  obtain ⟨later, hall⟩ := f.exists_all_eq
  exact ⟨later, by rw [toConstant_eq_firstForm hname, hall, firstForm_append h.earlier]⟩

theorem Gives.toConstant_of_value (h : n.Gives f a) (hname : n.outputs.head? = some name) {v : f.kind.Value}
    (hv : a.value? = some ⟨f.kind, v⟩) : n.toConstant = f.make name v := by
  obtain ⟨later, heq⟩ := h.toConstant_eq hname
  rw [heq, firstForm, attribute?_eq_some_iff.mpr ⟨a, h.first, hv⟩]
  rfl

theorem Gives.toConstant_of_ne (h : n.Gives f a) (hname : n.outputs.head? = some name)
    (hne : ∀ v : f.kind.Value, a.value? ≠ some ⟨f.kind, v⟩) :
    n.toConstant = .fail (.typeMismatch f.name f.kind (typeWord a.type)) := by
  obtain ⟨later, heq⟩ := h.toConstant_eq hname
  rw [heq, firstForm, attribute?_of_ne h.first hne]
  rfl

/-- The first form that an operator has decides alone. If its attribute has a value, the operator makes the constant
of the tensor with this value, with the same findings, and so does each operator of this name that gives the tensor
itself; if the attribute is declared to be of another type, it is refused. -/
theorem toConstant_form (hname : n.outputs.head? = some name) (h : n.Gives f a) :
    (∀ v, a.value? = some ⟨f.kind, v⟩ → f.Fits v →
      n.toConstant = (f.toTensor name v).toConstant ∧
      ∀ (m : Node) (b : Attribute), m.outputs.head? = some name → m.Gives .tensor b →
        b.value? = some ⟨.tensor, f.toTensor name v⟩ → m.toConstant = n.toConstant) ∧
    (¬a.Declares f.kind →
      n.toConstant = .fail (.typeMismatch f.name f.kind (typeWord a.type))) := by
  constructor
  · intro v hv hfits
    have hmade : n.toConstant = (f.toTensor name v).toConstant := by
      rw [h.toConstant_of_value hname hv, f.make_eq name v hfits]
    refine ⟨hmade, fun m b hm hb hvalue => ?_⟩
    have htensor : m.toConstant = (f.toTensor name v).toConstantNamed name :=
      hb.toConstant_of_value hm hvalue
    rw [htensor, hmade]
    cases f <;> rfl
  · intro hdeclared
    exact h.toConstant_of_ne hname fun v hv => hdeclared (Attribute.declares_of_value? hv)

end Node

/-- An operator with an integer out of range as its value, a second one of that name, and a list behind them. -/
def integerConstant : Node where
  opType := "Constant"
  outputs := ["c", "spare"]
  attributes := [{ name := "value_ints", type := 7, ints := [1, 2] }, { name := "note", type := 3 },
    { name := "value_int", type := 2, int := 2147483648 }, { name := "value_int", type := 1 }]

/-- The same with a float in front that is declared to be an integer. -/
def mistypedConstant : Node :=
  { integerConstant with
    attributes := { name := "value_float", type := 2, int := 1 } :: integerConstant.attributes }

theorem gives_integerConstant : integerConstant.Gives .int { name := "value_int", type := 2, int := 2147483648 } :=
  ⟨by decide, by decide⟩

theorem gives_mistypedConstant : mistypedConstant.Gives .float { name := "value_float", type := 2, int := 1 } :=
  ⟨by decide, by decide⟩

theorem form_integerConstant :
    integerConstant.Gives .int { name := "value_int", type := 2, int := 2147483648 } ∧
    integerConstant.toConstant = (ConstantForm.int.toTensor "c" 2147483648).toConstant ∧
    integerConstant.toConstant
      = ⟨[.valueClamped "c" 2147483648 2147483647], .ok ⟨"c", [], .int [2147483647], rfl⟩⟩ ∧
    mistypedConstant.Gives .float { name := "value_float", type := 2, int := 1 } ∧
    mistypedConstant.toConstant = .fail (.typeMismatch "value_float" .float "int") := by
  have hname : integerConstant.outputs.head? = some "c" := rfl
  have hname' : mistypedConstant.outputs.head? = some "c" := rfl
  have hmade := ((Node.toConstant_form hname gives_integerConstant).1 2147483648 rfl trivial).1
  have hrefused := (Node.toConstant_form hname' gives_mistypedConstant).2 (by decide)
  exact ⟨gives_integerConstant, hmade, hmade.trans rfl, gives_mistypedConstant, hrefused⟩

end NetPack.Onnx
