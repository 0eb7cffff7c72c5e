import NetPack.Onnx.Constant

/-!
# What constants are made of

A constant that can be made has the name of its tensor (`Tensor.toConstant_ok`) or, for an operator of type
`Constant`, that of the first output (`Node.toConstant_ok`). What is found on the way are the 64-bit integers
outside the range of elements, in order and nothing else.
-/

namespace NetPack

/-! ## Integers that are moved -/

/-- A 64-bit integer that is no element of a constant. -/
def Excessive (v : Int64) : Prop :=
  v.toInt < -elementBound ∨ elementBound < v.toInt

instance (v : Int64) : Decidable (Excessive v) :=
  inferInstanceAs (Decidable (_ ∨ _))

/-- The bound that is nearest to an integer beyond it. -/
def nearestBound (v : Int64) : Int32 :=
  if v.toInt < 0 then -2147483647 else 2147483647

/-- The reports of the integers that are no elements, in order. -/
def clampings (tensor : String) (vs : List Int64) : List Diagnostic :=
  (vs.filter Excessive).map fun v => .valueClamped tensor v (nearestBound v)

theorem toInt_saturate (v : Int64) :
    (saturate v).toInt = max (-elementBound) (min elementBound v.toInt) := by
  unfold saturate elementBound
  exact Int32.toInt_ofInt_of_le (by omega) (by omega)

theorem clampReport?_eq (tensor : String) (v : Int64) : clampReport? tensor v =
    if Excessive v then some (.valueClamped tensor v (nearestBound v)) else none := by
  have hv := toInt_saturate v
  unfold elementBound at hv
  unfold clampReport?
  by_cases h : Excessive v
  · have hne : (saturate v).toInt ≠ v.toInt := by
      unfold Excessive elementBound at h
      omega
    have hbound : saturate v = nearestBound v := by
      apply Int32.toInt_inj.mp
      unfold Excessive elementBound at h
      unfold nearestBound
      split
      · rw [hv, show (-2147483647 : Int32).toInt = -2147483647 from rfl]
        omega
      · rw [hv, show (2147483647 : Int32).toInt = 2147483647 from rfl]
        omega
    rw [if_neg hne, if_pos h, hbound]
  · have heq : (saturate v).toInt = v.toInt := by
      unfold Excessive elementBound at h
      omega
    rw [if_pos heq, if_neg h]

theorem narrow_eq (tensor : String) (vs : List Int64) :
    narrow tensor vs = ⟨clampings tensor vs, .ok (vs.map saturate)⟩ := by
  unfold narrow clampings
  congr 1
  induction vs with
  | nil => rfl
  | cons v vs ih =>
    rw [List.filterMap_cons, clampReport?_eq, ih]
    by_cases h : Excessive v
    · simp [h]
    · simp [h]

/-- A constant that can be made is made of what it is asked to be made of. -/
theorem Constant.of?_eq_ok {name : String} {shape : List UInt32} {elements : Elements} {c : Constant}
    (h : Constant.of? name shape elements = .ok c) : c.name = name ∧ c.elements = elements := by
  unfold Constant.of? at h
  split at h
  · cases h
  · split at h
    · cases h
      exact ⟨rfl, rfl⟩
    · cases h

namespace Onnx

/-! ## Tensors -/

/-- The elements of a tensor of 64-bit integers. Other tensors have none. -/
def Tensor.integers (t : Tensor) : List Int64 :=
  if ElementType.ofNumber? t.elementType.toInt = some .int64 then
    if t.int64Data.isEmpty then (LittleEndian.split 8 t.rawData).map Int64.ofNat else t.int64Data
  else []

theorem Tensor.int64s_eq {t : Tensor} {name : String} {vs : List Int64}
    (ht : ElementType.ofNumber? t.elementType.toInt = some .int64) (h : t.int64s name = .ok vs) :
    t.integers = vs := by
  unfold integers
  rw [if_pos ht]
  unfold int64s at h
  split at h
  · rename_i hempty
    rw [if_pos hempty]
    unfold rawNumbers at h
    split at h
    · cases h
      rfl
    · cases h
  · rename_i hfull
    rw [if_neg hfull]
    cases h
    rfl

theorem Tensor.elements_eq_ok {t : Tensor} {name : String} {l : List Diagnostic} {es : Elements}
    (h : t.elements name = ⟨l, .ok es⟩) :
    l = clampings name t.integers ∧ t.integers.length ≤ es.length := by
  have hother : ElementType.ofNumber? t.elementType.toInt ≠ some .int64 → t.integers = [] :=
    fun hne => if_neg hne
  unfold elements at h
  split at h
  · cases h
  · rename_i heq
    rw [hother (by rw [heq]; decide)]
    exact ⟨(Logged.ofExcept_eq_ok_iff.mp h).2, Nat.zero_le _⟩
  · rename_i heq
    obtain ⟨vs, hvalues, hrest⟩ := Logged.ofExcept_bind_eq_ok_iff.mp h
    obtain ⟨cs, l₁, l₂, hcs, hpure, rfl⟩ := Logged.bind_eq_ok_iff.mp hrest
    rw [int64s_eq heq hvalues]
    rw [narrow_eq] at hcs
    cases hcs
    cases hpure
    refine ⟨by simp, Nat.le_of_eq ?_⟩
    exact (List.length_map saturate).symm
  · rename_i type hfloat hint heq
    rw [hother (by rw [heq]; exact fun h => hint (Option.some.inj h))]
    split at h
    · exact ⟨(Logged.ofExcept_eq_ok_iff.mp h).2, Nat.zero_le _⟩
    · cases h

/-- What can be said of a constant that a tensor makes. -/
theorem Tensor.toConstantNamed_eq_ok {t : Tensor} {name : String} {l : List Diagnostic} {c : Constant}
    (h : t.toConstantNamed name = ⟨l, .ok c⟩) :
    c.name = name ∧ l = clampings name t.integers ∧ t.integers.length ≤ c.elements.length := by
  obtain ⟨shape, -, h₁⟩ := Logged.ofExcept_bind_eq_ok_iff.mp h
  obtain ⟨es, l₁, l₂, hes, h₂, rfl⟩ := Logged.bind_eq_ok_iff.mp h₁
  obtain ⟨hc, rfl⟩ := Logged.ofExcept_eq_ok_iff.mp h₂
  obtain ⟨hname, rfl⟩ := Constant.of?_eq_ok hc
  obtain ⟨hlog, hlength⟩ := elements_eq_ok hes
  rw [List.append_nil]
  exact ⟨hname, hlog, hlength⟩

theorem Tensor.toConstant_ok {t : Tensor} {c : Constant} (h : t.toConstant.result = .ok c) :
    c.name = t.name ∧ t.toConstant.log = clampings t.name t.integers ∧
      t.integers.length ≤ c.elements.length :=
  toConstantNamed_eq_ok (Logged.eq_of_result h)

/-! ## Operators of type `Constant` -/

/-- The 64-bit integers in the value of an operator of type `Constant`, which is that of the first of four
attributes that it has. -/
def Node.integers (n : Node) : List Int64 :=
  match n.attribute? .tensor "value", n.attribute? .float "value_float", n.attribute? .int "value_int",
    n.attribute? .ints "value_ints" with
  | .ok (some t), _, _, _ => t.integers
  | _, .ok (some _), _, _ => []
  | _, _, .ok (some v), _ => [v]
  | _, _, _, .ok (some vs) => vs
  | _, _, _, _ => []

theorem Node.constantOfInts_eq_ok {name : String} {shape : List UInt32} {vs : List Int64}
    {l : List Diagnostic} {c : Constant} (h : constantOfInts name shape vs = ⟨l, .ok c⟩) :
    c.name = name ∧ l = clampings name vs := by
  obtain ⟨cs, l₁, l₂, hcs, hrest, rfl⟩ := Logged.bind_eq_ok_iff.mp h
  obtain ⟨hc, rfl⟩ := Logged.ofExcept_eq_ok_iff.mp hrest
  rw [narrow_eq] at hcs
  cases hcs
  exact ⟨(Constant.of?_eq_ok hc).1, List.append_nil _⟩

theorem Node.toConstant_eq_ok {n : Node} {l : List Diagnostic} {c : Constant}
    (h : n.toConstant = ⟨l, .ok c⟩) :
    n.outputs.head? = some c.name ∧ l = clampings c.name n.integers := by
  obtain ⟨name, l₁, l', hname, h₁, rfl⟩ := Logged.bind_eq_ok_iff.mp h
  obtain ⟨hhead, rfl⟩ := Logged.ofOption_eq_ok_iff.mp hname
  -- It is enough to know the name and the findings of the constant that is made.
  suffices hmade : c.name = name ∧ l' = clampings name n.integers by
    rw [hhead, hmade.1, List.nil_append]
    exact ⟨rfl, hmade.2⟩
  unfold integers
  obtain ⟨tensor?, htensor, h₂⟩ := Logged.ofExcept_bind_eq_ok_iff.mp h₁
  rw [htensor]
  cases tensor? with
  | some t =>
    obtain ⟨hname, hlog, -⟩ := Tensor.toConstantNamed_eq_ok h₂
    exact ⟨hname, hlog⟩
  | none =>
  obtain ⟨float?, hfloat, h₃⟩ := Logged.ofExcept_bind_eq_ok_iff.mp h₂
  rw [hfloat]
  cases float? with
  | some v =>
    obtain ⟨hc, rfl⟩ := Logged.ofExcept_eq_ok_iff.mp h₃
    exact ⟨(Constant.of?_eq_ok hc).1, rfl⟩
  | none =>
  obtain ⟨int?, hint, h₄⟩ := Logged.ofExcept_bind_eq_ok_iff.mp h₃
  rw [hint]
  cases int? with
  | some v => exact constantOfInts_eq_ok h₄
  | none =>
  obtain ⟨ints?, hints, h₅⟩ := Logged.ofExcept_bind_eq_ok_iff.mp h₄
  rw [hints]
  cases ints? with
  | some vs =>
    dsimp only at h₅
    split at h₅
    · exact constantOfInts_eq_ok h₅
    · cases h₅
  | none => cases h₅

theorem Node.toConstant_ok {n : Node} {c : Constant} (h : n.toConstant.result = .ok c) :
    n.outputs.head? = some c.name ∧ n.toConstant.log = clampings c.name n.integers :=
  toConstant_eq_ok (Logged.eq_of_result h)

end Onnx

end NetPack
