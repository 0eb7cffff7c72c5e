import NetPack.Proofs.Onnx.Elements

/-!
# Typed and raw data

The values of a tensor stand in the field of their type or, little-endian, in its raw data. Both make the same
constant or fail in the same way, with the same findings; and raw data behind a field that has entries count for
nothing (`Values.toConstant_raw`).
-/

namespace NetPack.Onnx

open LittleEndian (encode split)

/-- Values of one of the element types that constants are made of. -/
inductive Values
  | float (vs : List Single)
  | uint8 (vs : List UInt8)
  | int8 (vs : List Int8)
  | uint16 (vs : List UInt16)
  | int16 (vs : List Int16)
  | int32 (vs : List Int32)
  | int64 (vs : List Int64)
deriving DecidableEq

namespace Values

/-! ## Tensors of values -/

def type : Values → ElementType
  | float _ => .float
  | uint8 _ => .uint8
  | int8 _ => .int8
  | uint16 _ => .uint16
  | int16 _ => .int16
  | int32 _ => .int32
  | int64 _ => .int64

/-- The bytes that a value takes. -/
def width : Values → Nat
  | uint8 _ | int8 _ => 1
  | uint16 _ | int16 _ => 2
  | float _ | int32 _ => 4
  | int64 _ => 8

/-- The bit patterns of the values. -/
def patterns : Values → List Nat
  | float vs => vs.map fun v => v.bits.toNat
  | uint8 vs => vs.map UInt8.toNat
  | int8 vs => vs.map fun v => v.toUInt8.toNat
  | uint16 vs => vs.map UInt16.toNat
  | int16 vs => vs.map fun v => v.toUInt16.toNat
  | int32 vs => vs.map fun v => v.toUInt32.toNat
  | int64 vs => vs.map fun v => v.toUInt64.toNat

variable (name : String) (dims : List Int64)

/-- The tensor that holds the values in the field of their type. -/
def typed (v : Values) : Tensor :=
  let t : Tensor := { name, dims, elementType := Int32.ofNat v.type.number }
  match v with
  | float vs => { t with floatData := vs }
  | uint8 vs => { t with int32Data := vs.map fun v => Int32.ofNat v.toNat }
  | int8 vs => { t with int32Data := vs.map Int8.toInt32 }
  | uint16 vs => { t with int32Data := vs.map fun v => Int32.ofNat v.toNat }
  | int16 vs => { t with int32Data := vs.map Int16.toInt32 }
  | int32 vs => { t with int32Data := vs }
  | int64 vs => { t with int64Data := vs }

/-- The tensor that holds the values as raw data. -/
def raw (v : Values) : Tensor where
  name := name
  dims := dims
  elementType := Int32.ofNat v.type.number
  rawData := v.patterns.flatMap (encode v.width)

/-- The elements of a constant of the values: floats bit for bit, narrow integers with their sign, and wide ones
at the nearest bound. -/
def elements : Values → Elements
  | float vs => .float vs
  | uint8 vs => .int (vs.map fun v => Int32.ofNat v.toNat)
  | int8 vs => .int (vs.map Int8.toInt32)
  | uint16 vs => .int (vs.map fun v => Int32.ofNat v.toNat)
  | int16 vs => .int (vs.map Int16.toInt32)
  | int32 vs => .int vs
  | int64 vs => .int (vs.map saturate)

/-- The values that may have to be moved. -/
def integers : Values → List Int64
  | int64 vs => vs
  | _ => []

/-- The constant of the values under a name, with the findings on the way. -/
def constant (v : Values) : Reported Constant := do
  let shape ← .ofExcept ({ dims : Tensor }.shape name)
  .tellAll (clampings name v.integers)
  .ofExcept (Constant.of? name shape v.elements)

/-! ## Patterns -/

theorem width_pos (v : Values) : 0 < v.width := by
  cases v <;> exact Nat.succ_pos _

theorem lt_of_mem_patterns {v : Values} {n : Nat} (h : n ∈ v.patterns) : n < Nat.pow 256 v.width := by
  cases v with
  | float vs =>
    obtain ⟨x, -, rfl⟩ := List.mem_map.mp h
    exact x.bits.toNat_lt
  | uint8 vs =>
    obtain ⟨x, -, rfl⟩ := List.mem_map.mp h
    exact x.toNat_lt
  | int8 vs =>
    obtain ⟨x, -, rfl⟩ := List.mem_map.mp h
    exact x.toUInt8.toNat_lt
  | uint16 vs =>
    obtain ⟨x, -, rfl⟩ := List.mem_map.mp h
    exact x.toNat_lt
  | int16 vs =>
    obtain ⟨x, -, rfl⟩ := List.mem_map.mp h
    exact x.toUInt16.toNat_lt
  | int32 vs =>
    obtain ⟨x, -, rfl⟩ := List.mem_map.mp h
    exact x.toUInt32.toNat_lt
  | int64 vs =>
    obtain ⟨x, -, rfl⟩ := List.mem_map.mp h
    exact x.toUInt64.toNat_lt

theorem split_patterns (v : Values) : split v.width (v.patterns.flatMap (encode v.width)) = v.patterns :=
  LittleEndian.split_encode v.width_pos fun _ => lt_of_mem_patterns

/-! ## Both tensors -/

/-- How the values stand in raw data. -/
def layout (v : Values) : RawLayout where
  type := v.elements.type
  width := v.width
  scalar n := match v with
    | float _ => .float ⟨UInt32.ofNat n⟩
    | uint8 _ | uint16 _ | int32 _ => .int (Int32.ofNat n)
    | int8 _ => .int (Int8.ofNat n).toInt32
    | int16 _ => .int (Int16.ofNat n).toInt32
    | int64 _ => .int (saturate (Int64.ofNat n))

theorem layout?_type (v : Values) : v.type.layout? = some v.layout := by
  cases v <;> rfl

theorem ofNat_toNat_toUInt64 (x : Int64) : Int64.ofNat x.toUInt64.toNat = x := by
  rw [← UInt64.toInt64_ofNat', UInt64.ofNat_toNat, Int64.toInt64_toUInt64]

/-- A value is found again from its pattern. -/
theorem map_scalar_patterns (v : Values) : v.patterns.map v.layout.scalar = v.elements.scalars := by
  cases v with
  | float vs => simp [patterns, layout, elements, Elements.scalars]
  | uint8 vs | uint16 vs => simp [patterns, layout, elements, Elements.scalars]
  | int8 vs =>
    have hfound (x : Int8) : Int8.ofNat x.toUInt8.toNat = x := by
      rw [← UInt8.toInt8_ofNat', UInt8.ofNat_toNat, Int8.toInt8_toUInt8]
    simp [patterns, layout, elements, Elements.scalars, hfound]
  | int16 vs =>
    have hfound (x : Int16) : Int16.ofNat x.toUInt16.toNat = x := by
      rw [← UInt16.toInt16_ofNat', UInt16.ofNat_toNat, Int16.toInt16_toUInt16]
    simp [patterns, layout, elements, Elements.scalars, hfound]
  | int32 vs =>
    have hfound (x : Int32) : Int32.ofNat x.toUInt32.toNat = x := by
      rw [← UInt32.toInt32_ofNat', UInt32.ofNat_toNat, Int32.toInt32_toUInt32]
    simp [patterns, layout, elements, Elements.scalars, hfound]
  | int64 vs => simp [patterns, layout, elements, Elements.scalars, ofNat_toNat_toUInt64]

section

variable (v : Values)

theorem ofNumber?_typed : ElementType.ofNumber? (v.typed name dims).elementType.toInt = some v.type := by
  have htype : (v.typed name dims).elementType = Int32.ofNat v.type.number := by
    cases v <;> rfl
  rw [htype, ElementType.ofNumber?_ofNat]

theorem ofNumber?_raw : ElementType.ofNumber? (v.raw name dims).elementType.toInt = some v.type :=
  ElementType.ofNumber?_ofNat v.type

theorem layout?_typed : (v.typed name dims).layout? = some v.layout := by
  rw [Tensor.layout?, ofNumber?_typed, Option.bind_some, layout?_type]

theorem layout?_raw : (v.raw name dims).layout? = some v.layout := by
  rw [Tensor.layout?, ofNumber?_raw, Option.bind_some, layout?_type]

theorem name_typed : (v.typed name dims).name = name := by
  cases v <;> rfl

theorem dims_typed : (v.typed name dims).dims = dims := by
  cases v <;> rfl

theorem rawData_typed : (v.typed name dims).rawData = [] := by
  cases v <;> rfl

theorem typed_typed : (v.typed name dims).typed = v.elements.scalars := by
  unfold Tensor.typed
  rw [ofNumber?_typed]
  cases v with
  | int64 vs => exact List.map_map.symm
  | _ => rfl

theorem typed_raw : (v.raw name dims).typed = [] := by
  unfold Tensor.typed
  split <;> rfl

theorem dvd_length_rawData : v.width ∣ (v.raw name dims).rawData.length := by
  refine ⟨v.patterns.length, ?_⟩
  simp [raw, List.length_flatMap, List.map_const', Nat.mul_comm]

theorem scalars_typed : (v.typed name dims).scalars v.layout = v.elements.scalars := by
  rw [Tensor.scalars, typed_typed]
  by_cases hnil : v.elements.scalars = []
  · rw [if_pos hnil, hnil, Tensor.rawScalars, rawData_typed, List.length_nil, Nat.zero_div]
    rfl
  · rw [if_neg hnil]

theorem scalars_raw : (v.raw name dims).scalars v.layout = v.elements.scalars := by
  rw [Tensor.scalars, if_pos (typed_raw name dims v),
    Tensor.rawScalars_eq v.width_pos (dvd_length_rawData name dims v)]
  exact (congrArg (List.map v.layout.scalar) v.split_patterns).trans v.map_scalar_patterns

theorem integers_typed : (v.typed name dims).integers = v.integers := by
  cases v with
  | int64 vs =>
    rw [Tensor.integers_of_int64 (ofNumber?_typed name dims (int64 vs)), rawData_typed,
      LittleEndian.split_nil]
    cases vs <;> rfl
  | _ => exact Tensor.integers_of_ne (by rw [ofNumber?_typed]; rintro ⟨⟩)

theorem integers_raw : (v.raw name dims).integers = v.integers := by
  cases v with
  | int64 vs =>
    rw [Tensor.integers_of_int64 (ofNumber?_raw name dims (int64 vs))]
    have hsplit : split 8 (raw name dims (int64 vs)).rawData = vs.map fun x => x.toUInt64.toNat :=
      (int64 vs).split_patterns
    rw [hsplit, List.map_map]
    exact (List.map_congr_left fun x _ => ofNat_toNat_toUInt64 x).trans (List.map_id vs)
  | _ => exact Tensor.integers_of_ne (by rw [ofNumber?_raw]; rintro ⟨⟩)

/-! ## The constant -/

theorem elements_typed : (v.typed name dims).elements name = ⟨clampings name v.integers, .ok v.elements⟩ := by
  obtain ⟨es, hes, htype, hscalars⟩ := Tensor.elements_of_whole name (layout?_typed name dims v)
    (.inr (by rw [rawData_typed]; exact Nat.dvd_zero _))
  rw [scalars_typed] at hscalars
  rw [hes, integers_typed, Elements.eq_of_scalars htype hscalars]

theorem elements_raw : (v.raw name dims).elements name = (v.typed name dims).elements name :=
  Tensor.elements_congr name (layout?_typed name dims v) (layout?_raw name dims v)
    (.inr (by rw [rawData_typed]; exact Nat.dvd_zero _)) (.inr (dvd_length_rawData name dims v))
    (by rw [scalars_raw, scalars_typed]) (by rw [integers_raw, integers_typed])

theorem toConstant_typed : (v.typed name dims).toConstant = v.constant name dims := by
  have helements : (⟨clampings name v.integers, .ok v.elements⟩ : Reported Elements)
      = .tellAll (clampings name v.integers) >>= fun _ => pure v.elements := by
    rw [Logged.bind_of_ok _ rfl]
    exact congrArg (Logged.mk · _) (List.append_nil _).symm
  unfold Tensor.toConstant Tensor.toConstantNamed constant
  rw [name_typed, elements_typed, helements]
  simp only [bind_assoc, pure_bind, Tensor.shape, dims_typed]

end

end Values

/-! ## Fields with entries -/

section

variable {t : Tensor} (h : t.typed ≠ []) (bytes : List UInt8)
include h

theorem Tensor.integers_rawData : { t with rawData := bytes }.integers = t.integers := by
  by_cases htype : ElementType.ofNumber? t.elementType.toInt = some .int64
  · rw [typed_of_int64 htype, ne_eq, List.map_eq_nil_iff, ← List.isEmpty_iff] at h
    rw [integers_of_int64 htype, integers_of_int64 (t := { t with rawData := bytes }) htype, if_neg h,
      if_neg h]
  · rw [integers_of_ne htype, integers_of_ne (t := { t with rawData := bytes }) htype]

/-- Raw data behind a field that has entries do not matter, whatever they are. -/
theorem Tensor.elements_rawData (name : String) :
    { t with rawData := bytes }.elements name = t.elements name := by
  cases hlayout : t.layout? with
  | none =>
    rw [elements_of_unsupported name hlayout,
      elements_of_unsupported (t := { t with rawData := bytes }) name hlayout]
  | some l =>
    have hscalars : { t with rawData := bytes }.scalars l = t.scalars l :=
      (if_neg h).trans (if_neg h).symm
    exact elements_congr name hlayout hlayout (.inl h) (.inl h) hscalars (integers_rawData h bytes)

end

/-- Both tensors of some values make the same constant or fail in the same way, with the same findings. Raw data
behind a field that has entries have no influence. -/
theorem Values.toConstant_raw (v : Values) (name : String) (dims : List Int64) :
    (v.raw name dims).toConstant = (v.typed name dims).toConstant ∧
    (v.typed name dims).toConstant = v.constant name dims ∧
    ∀ t : Tensor, t.typed ≠ [] → ∀ bytes, { t with rawData := bytes }.toConstant = t.toConstant := by
  refine ⟨?_, toConstant_typed name dims v, fun t h bytes => ?_⟩
  · have hdims : (v.raw name dims).dims = (v.typed name dims).dims := (dims_typed name dims v).symm
    rw [Tensor.toConstant, Tensor.toConstant, name_typed]
    exact Tensor.toConstantNamed_congr hdims (elements_raw name dims v)
  · exact Tensor.toConstantNamed_congr rfl (Tensor.elements_rawData h bytes t.name)

theorem Values.toConstant_raw_int16 :
    let t := (Values.int16 [-32768, 5]).typed "w" [2]
    { t with int32Data := [], rawData := [0, 128, 5, 0] }.toConstant = t.toConstant ∧
    t.toConstant.result.isOk ∧ { t with rawData := [1, 2, 3] }.toConstant = t.toConstant :=
  ⟨(toConstant_raw (.int16 [-32768, 5]) "w" [2]).1, by decide,
    (toConstant_raw (.int16 [-32768, 5]) "w" [2]).2.2 _ (by decide) [1, 2, 3]⟩

end NetPack.Onnx
